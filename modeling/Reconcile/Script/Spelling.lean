import Reconcile.Fault
import Reconcile.Diff.Equality
import Reconcile.Text.Replaced
/-!
# Spellings

A spelling is how one engine writes each kind of statement, under fixed options.
Statements come without their terminator, which the engine's script puts after each
of them.  What all engines write alike is defined here; a spelling takes it over or
says it differently.
-/

namespace Reconcile

/-- How one engine writes its statements. -/
structure Spelling where
  dialect : Dialect
  options : Options
  /-- Stands after every statement. -/
  terminator : String
  /-- A column as new tables and ADD COLUMN list it. -/
  columnDefinition : Column → String
  /-- The creation of a table with its primary key, and what completes it. -/
  createTable : Table → Except ScriptFault (List String)
  addColumn : Table → Column → List String
  dropColumn : Table → Column → List String
  /-- Turns the second column into the first. -/
  alterColumn : Table → Column → Column → Except ScriptFault (List String)
  /-- Gives the second table what the first says beside its members. -/
  alterTableOptions : Table → Table → List String
  indexColumns : Index → String
  /-- A secondary index or a key constraint on a table that exists. -/
  createIndex : Table → Index → Except ScriptFault String
  dropIndex : Table → Index → String
  /-- The clauses of a foreign key that say what happens to its rows. -/
  referentialActions : ForeignKey → Except ScriptFault String
  dropForeignKey : Table → ForeignKey → String
  createView : View → Except ScriptFault String
  createRoutine : Routine → Except ScriptFault String
  dropRoutine : Routine → String
  createSequence : Sequence → Except ScriptFault String
  /-- Turns the second sequence into the first. -/
  alterSequence : Sequence → Sequence → Except ScriptFault (List String)
  dropSequence : Sequence → Except ScriptFault String

/-! ## What all engines share -/

namespace Dialect

variable (d : Dialect) (o : Options)

/-- The name of an object, with its schema if the options ask for it. -/
def qualified (schema name : String) : String :=
  d.qualify schema name o.useSchemaName

def tableName (t : Table) : String :=
  d.qualified o t.schema t.name

/-- ALTER TABLE and what follows it. -/
def alterTable (t : Table) (change : String) : String :=
  s!"ALTER TABLE {d.tableName o t} {change}"

def dropTable (t : Table) : String :=
  s!"DROP TABLE {d.tableName o t}"

def dropColumn (t : Table) (c : Column) : String :=
  d.alterTable o t s!"DROP COLUMN {d.quote c.name}"

def dropConstraint (t : Table) (name : String) : String :=
  d.alterTable o t s!"DROP CONSTRAINT {d.quote name}"

def dropView (v : View) : String :=
  s!"DROP VIEW {d.qualified o v.schema v.name}"

def dropSequence (s : Sequence) : String :=
  s!"DROP SEQUENCE {d.qualified o s.schema s.name}"

/-- The columns of an index, separated by commas; `suffix` is what stands between a
column's name and its direction. -/
def indexColumns (suffix : IndexColumn → String) (i : Index) : String :=
  Text.joined ", " (i.orderedColumns.map fun c =>
    d.quote c.name ++ suffix c ++ if c.descending then " DESC" else "")

end Dialect

/-- A clause for an action other than the one that is implied. -/
def ReferentialAction.clause (event : String) (a : ReferentialAction) : String :=
  if a = .noAction then "" else s!" ON {event} {a.sql}"

def ForeignKey.actionClauses (fk : ForeignKey) : String :=
  fk.onDelete.clause "DELETE" ++ fk.onUpdate.clause "UPDATE"

/-- The collation that scripts name, which is none where collations are ignored. -/
def Column.scriptedCollation (c : Column) (o : Options) : Option String :=
  if o.ignoreCollate then none else c.collation

/-- The columns of a new table: as they stand, or by name. -/
def creationOrder (o : Options) (t : Table) : List Column :=
  if o.orderColumnsAlphabetically then
    t.columns.mergeSort fun a b => !decide (b.name < a.name)
  else t.columns

/-- A parenthesised list with one definition to a line. -/
def definitionList (definitions : List String) : String :=
  "(\n" ++ Text.joined ",\n" (definitions.map ("  " ++ ·)) ++ "\n)"

namespace Spelling

variable (s : Spelling)

def quote (name : String) : String :=
  s.dialect.quote name

def qualified (schema name : String) : String :=
  s.dialect.qualified s.options schema name

def tableName (t : Table) : String :=
  s.dialect.tableName s.options t

def dropTable (t : Table) : String :=
  s.dialect.dropTable s.options t

def dropView (v : View) : String :=
  s.dialect.dropView s.options v

def creationOrder (t : Table) : List Column :=
  Reconcile.creationOrder s.options t

def createForeignKey (t : Table) (fk : ForeignKey) : Except ScriptFault String := do
  let columns := Text.joined ", " (fk.orderedColumns.map fun c => s.quote c.column)
  let referenced := Text.joined ", " (fk.orderedColumns.map fun c => s.quote c.referencedColumn)
  let target := s.qualified fk.referencedSchema fk.referencedTable
  let actions ← s.referentialActions fk
  return s.dialect.alterTable s.options t
    s!"ADD CONSTRAINT {s.quote fk.name} FOREIGN KEY ({columns}) REFERENCES {target} ({referenced}){actions}"

end Spelling

end Reconcile
