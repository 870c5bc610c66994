import Reconcile.Schema.Key
import Reconcile.Text.Casing
import Reconcile.Text.Blank
/-!
# Tables

A table with its columns in the order they were read, its indexes and its foreign
keys.  What only one engine knows of a table or an index stands in an extension
that says which engine that is.  An index and a foreign key keep their columns as
they were stored and number them; `orderedColumns` lists them by those numbers,
columns of one number staying in stored order.
-/

namespace Reconcile

/-- Auto-numbering of a column. -/
structure Identity where
  seed : Int64
  increment : Int64
deriving DecidableEq, Repr, Inhabited

structure Column where
  name : String
  /-- Position in reading order, from one. -/
  ordinalPosition : UInt32 := 0
  /-- Type as the engine spells it, with its length and precision. -/
  dataType : String
  nullable : Bool := false
  /-- Default as an SQL expression, ready to stand after DEFAULT. -/
  default : Option String := none
  collation : Option String := none
  /-- Character set, which only MySQL keeps per column. -/
  characterSet : Option String := none
  identity : Option Identity := none
  comment : Option String := none
  /-- Name of the constraint that SQL Server makes of a default. -/
  defaultConstraint : Option String := none
deriving DecidableEq, Repr, Inhabited

/-! ## Indexes -/

inductive IndexKind where
  | primaryKey
  /-- Declared as a constraint of the table. -/
  | uniqueConstraint
  | unique
  | index
  | fulltext
  | spatial
deriving DecidableEq, Repr, Inhabited

/-- Primary keys and unique constraints are dropped as constraints. -/
def IndexKind.isConstraint : IndexKind → Bool
  | .primaryKey | .uniqueConstraint => true
  | _ => false

inductive IndexExtension where
  | none
  | mySql (indexType : String)
  | sqlServer (clustered : Bool) (filter : Option String)
  | postgreSql (method : String) (predicate : Option String)
deriving DecidableEq, Repr, Inhabited

structure IndexColumn where
  name : String
  ordinal : UInt32
  descending : Bool := false
  /-- Length of the indexed front part, which only MySQL has. -/
  prefixLength : Option UInt32 := none
deriving DecidableEq, Repr, Inhabited

/-- Stable order by a number. -/
def sortedByOrdinal {α : Type} (ordinal : α → UInt32) (xs : List α) : List α :=
  xs.mergeSort fun a b => decide (ordinal a ≤ ordinal b)

structure Index where
  name : String
  kind : IndexKind
  columns : List IndexColumn := []
  extension : IndexExtension := .none
deriving DecidableEq, Repr, Inhabited

namespace Index

def orderedColumns (i : Index) : List IndexColumn :=
  sortedByOrdinal IndexColumn.ordinal i.columns

/-- Appends a column with the next number. -/
def column (i : Index) (name : String) : Index :=
  { i with
    columns := i.columns ++ [{ name := name, ordinal := UInt32.ofNat (i.columns.length + 1) }] }

end Index

/-! ## Foreign keys -/

inductive ReferentialAction where
  | noAction
  | restrict
  | cascade
  | setNull
  | setDefault
deriving DecidableEq, Repr, Inhabited

namespace ReferentialAction

def sql : ReferentialAction → String
  | .noAction => "NO ACTION"
  | .restrict => "RESTRICT"
  | .cascade => "CASCADE"
  | .setNull => "SET NULL"
  | .setDefault => "SET DEFAULT"

/-- The spellings of the catalogs, in upper case and with blanks for underscores:
the words themselves, or PostgreSQL's letter. -/
def spellings : List (String × ReferentialAction) :=
  [("NO ACTION", .noAction), ("A", .noAction), ("RESTRICT", .restrict), ("R", .restrict),
   ("CASCADE", .cascade), ("C", .cascade), ("SET NULL", .setNull), ("N", .setNull),
   ("SET DEFAULT", .setDefault), ("D", .setDefault)]

/-- Reads a catalog's spelling, in any letter case. -/
def parse? (value : String) : Option ReferentialAction :=
  let word := (Text.upperChars (Text.trim value)).map fun c => if c = '_' then ' ' else c
  spellings.lookup (String.ofList word)

end ReferentialAction

structure ForeignKeyColumn where
  ordinal : UInt32
  column : String
  referencedColumn : String
deriving DecidableEq, Repr, Inhabited

structure ForeignKey where
  name : String
  columns : List ForeignKeyColumn := []
  referencedSchema : String
  referencedTable : String
  onUpdate : ReferentialAction := .noAction
  onDelete : ReferentialAction := .noAction
deriving DecidableEq, Repr, Inhabited

namespace ForeignKey

def referencedKey (fk : ForeignKey) : Key :=
  ⟨fk.referencedSchema, fk.referencedTable⟩

def orderedColumns (fk : ForeignKey) : List ForeignKeyColumn :=
  sortedByOrdinal ForeignKeyColumn.ordinal fk.columns

/-- Appends a pair of columns with the next number. -/
def column (fk : ForeignKey) (column referenced : String) : ForeignKey :=
  { fk with
    columns := fk.columns ++ [⟨UInt32.ofNat (fk.columns.length + 1), column, referenced⟩] }

end ForeignKey

/-! ## Tables -/

inductive TableExtension where
  | none
  /-- Engine, version of the stored format, and the defaults of new columns.  The
  version is informational. -/
  | mySql (engine : String) (version : Int64) (characterSet collation : String)
deriving DecidableEq, Repr, Inhabited

structure Table where
  schema : String
  name : String
  columns : List Column := []
  indexes : List Index := []
  foreignKeys : List ForeignKey := []
  extension : TableExtension := .none
deriving DecidableEq, Repr, Inhabited

namespace Table

def key (t : Table) : Key :=
  ⟨t.schema, t.name⟩

/-- Appends a column at the next position, whatever position it came with. -/
def addColumn (t : Table) (c : Column) : Table :=
  { t with
    columns :=
      t.columns ++ [{ c with ordinalPosition := UInt32.ofNat (t.columns.length + 1) }] }

def addIndex (t : Table) (i : Index) : Table :=
  { t with indexes := t.indexes ++ [i] }

def addForeignKey (t : Table) (fk : ForeignKey) : Table :=
  { t with foreignKeys := t.foreignKeys ++ [fk] }

def column? (t : Table) (name : String) : Option Column :=
  t.columns.find? (·.name == name)

/-- The first index that is a primary key. -/
def primaryKey? (t : Table) : Option Index :=
  t.indexes.find? (·.kind == .primaryKey)

/-- Whether a foreign key of the table points at `key`. -/
def references (t : Table) (key : Key) : Bool :=
  t.foreignKeys.any (·.referencedKey == key)

end Table

end Reconcile
