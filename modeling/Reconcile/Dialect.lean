import Reconcile.Text.Quoted
/-!
# Dialects and options

The engines whose catalogs are read and whose statements are written, with the two
things every part of the program needs from them: how a name is quoted, and which
port the engine listens on when none is given.
-/

namespace Reconcile

inductive Dialect where
  | sqlServer
  | mySql
  | postgreSql
deriving DecidableEq, Repr, Inhabited

namespace Dialect

/-- Name of the engine in messages. -/
def title : Dialect → String
  | .sqlServer => "Microsoft SQL Server"
  | .mySql => "MySQL"
  | .postgreSql => "PostgreSQL"

def defaultPort : Dialect → UInt16
  | .sqlServer => 1433
  | .mySql => 3306
  | .postgreSql => 5432

def openingQuote : Dialect → Char
  | .sqlServer => '['
  | .mySql => '\x60'
  | .postgreSql => '\x22'

def closingQuote : Dialect → Char
  | .sqlServer => ']'
  | .mySql => '\x60'
  | .postgreSql => '\x22'

/-- An identifier in the engine's quotes, with closing quotes inside it doubled. -/
def quote (d : Dialect) (name : String) : String :=
  Text.enclose d.openingQuote d.closingQuote name

/-- A quoted name, after its quoted schema where one is asked for and not empty. -/
def qualify (d : Dialect) (schema name : String) (useSchema : Bool) : String :=
  if useSchema && !schema.isEmpty then d.quote schema ++ "." ++ d.quote name
  else d.quote name

end Dialect

/-- What counts in a comparison and how scripts are spelled. -/
structure Options where
  /-- Collations and character sets neither count nor are scripted. -/
  ignoreCollate : Bool := false
  /-- New tables list their columns by name. -/
  orderColumnsAlphabetically : Bool := false
  /-- The column pairs of a foreign key are compared as a set. -/
  ignoreReferenceTableColumnOrder : Bool := false
  /-- Scripts qualify names with their schema. -/
  useSchemaName : Bool := false
deriving DecidableEq, Repr, Inhabited

end Reconcile
