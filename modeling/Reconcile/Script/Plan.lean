import Reconcile.Script.MySql
import Reconcile.Script.PostgreSql
import Reconcile.Script.SqlServer
import Reconcile.Diff.Comparison
/-!
# Plans

A plan holds the statements that create, drop or alter one object, by the phase of
a consolidated script that each belongs to.  A table is altered by editing what its
difference names and nothing else: `tableEdits` lists the edits, phase by phase,
and an edit is written by the engine's spelling.
-/

namespace Reconcile

/-- The spelling of an engine under given options. -/
def Spelling.of (d : Dialect) (o : Options) : Spelling :=
  match d with
  | .sqlServer => SqlServer.spelling o
  | .mySql => MySql.spelling o
  | .postgreSql => PostgreSql.spelling o

structure Plan where
  dropForeignKeys : List String := []
  dropIndexes : List String := []
  /-- The drop of the object itself. -/
  drops : List String := []
  /-- The creation of the object itself, or what alters it in place. -/
  creates : List String := []
  createIndexes : List String := []
  createForeignKeys : List String := []
deriving DecidableEq, Repr, Inhabited

namespace Plan

/-- The statements in the order in which the object's own script runs them. -/
def statements (p : Plan) : List String :=
  p.dropForeignKeys ++ p.dropIndexes ++ p.drops ++ p.creates ++ p.createIndexes
    ++ p.createForeignKeys

def isEmpty (p : Plan) : Bool :=
  p.statements.isEmpty

end Plan

/-! ## Edits of a table -/

/-- One step from a table towards another. -/
inductive TableEdit where
  | dropForeignKey (fk : ForeignKey)
  | dropIndex (i : Index)
  | dropColumn (c : Column)
  | addColumn (c : Column)
  | alterColumn (desired current : Column)
  | alterOptions
  | createIndex (i : Index)
  | createForeignKey (fk : ForeignKey)
deriving DecidableEq, Repr

/-- The statements of an edit on the way from `current` to `desired`. -/
def TableEdit.statements (s : Spelling) (desired current : Table) :
    TableEdit → Except ScriptFault (List String)
  | .dropForeignKey fk => .ok [s.dropForeignKey current fk]
  | .dropIndex i => .ok [s.dropIndex current i]
  | .dropColumn c => .ok (s.dropColumn current c)
  | .addColumn c => .ok (s.addColumn desired c)
  | .alterColumn wanted existing => s.alterColumn desired wanted existing
  | .alterOptions => .ok (s.alterTableOptions desired current)
  | .createIndex i => (s.createIndex desired i).map ([·])
  | .createForeignKey fk => (s.createForeignKey desired fk).map ([·])

namespace MemberDiff

variable {α : Type}

/-- The target's member, where it has to go. -/
def dropped? (m : MemberDiff α) : Option α :=
  match m.state with
  | .deleted | .modified => m.target
  | .added | .unchanged => none

/-- The source's member, where it has to come. -/
def created? (m : MemberDiff α) : Option α :=
  match m.state with
  | .added | .modified => m.source
  | .deleted | .unchanged => none

/-- The edit of a column, which is altered in place. -/
def columnEdit? (m : MemberDiff Column) : Option TableEdit :=
  match m.state, m.source, m.target with
  | .deleted, _, some c => some (.dropColumn c)
  | .added, some c, _ => some (.addColumn c)
  | .modified, some desired, some current => some (.alterColumn desired current)
  | _, _, _ => none

end MemberDiff

/-- The edits that a difference calls for, by phase. -/
structure TableEdits where
  dropForeignKeys : List TableEdit
  dropIndexes : List TableEdit
  alterations : List TableEdit
  createIndexes : List TableEdit
  createForeignKeys : List TableEdit

def TableDiff.edits (d : TableDiff) : TableEdits :=
  { dropForeignKeys := (d.foreignKeys.filterMap MemberDiff.dropped?).map .dropForeignKey
    dropIndexes := (d.indexes.filterMap MemberDiff.dropped?).map .dropIndex
    alterations :=
      d.columns.filterMap MemberDiff.columnEdit?
        ++ if d.optionsChanged then [.alterOptions] else []
    createIndexes := (d.indexes.filterMap MemberDiff.created?).map .createIndex
    createForeignKeys := (d.foreignKeys.filterMap MemberDiff.created?).map .createForeignKey }

/-- The statements of several edits, in order; the first that cannot be written
decides. -/
def editStatements (s : Spelling) (desired current : Table) (edits : List TableEdit) :
    Except ScriptFault (List String) :=
  (edits.mapM (TableEdit.statements s desired current)).map List.flatten

/-! ## Plans of each category -/

namespace Table

def planCreate (s : Spelling) (t : Table) : Except ScriptFault Plan := do
  let creates ← s.createTable t
  let createIndexes ← (t.indexes.filter (·.kind != .primaryKey)).mapM (s.createIndex t)
  let createForeignKeys ← t.foreignKeys.mapM (s.createForeignKey t)
  return { creates, createIndexes, createForeignKeys }

def planDrop (s : Spelling) (t : Table) : Plan :=
  { drops := [s.dropTable t], dropForeignKeys := t.foreignKeys.map (s.dropForeignKey t) }

def planAlter (s : Spelling) (desired current : Table) : Except ScriptFault Plan := do
  let edits := (TableDiff.between s.options desired current).edits
  let dropForeignKeys ← editStatements s desired current edits.dropForeignKeys
  let dropIndexes ← editStatements s desired current edits.dropIndexes
  let creates ← editStatements s desired current edits.alterations
  let createIndexes ← editStatements s desired current edits.createIndexes
  let createForeignKeys ← editStatements s desired current edits.createForeignKeys
  return { dropForeignKeys, dropIndexes, creates, createIndexes, createForeignKeys }

end Table

namespace Plan

def creating (statements : List String) : Plan :=
  { creates := statements }

def dropping (statement : String) : Plan :=
  { drops := [statement] }

/-- A drop and a creation in one. -/
def replacing (drop create : String) : Plan :=
  { drops := [drop], creates := [create] }

end Plan

namespace Category

/-- The plan that creates an object. -/
def planCreate (s : Spelling) : (c : Category) → c.Object → Except ScriptFault Plan
  | .sequence, q => (s.createSequence q).map fun text => .creating [text]
  | .table, t => t.planCreate s
  | .view, v => (s.createView v).map fun text => .creating [text]
  | .function, r => (s.createRoutine r).map fun text => .creating [text]
  | .procedure, r => (s.createRoutine r).map fun text => .creating [text]

/-- The plan that drops an object. -/
def planDrop (s : Spelling) : (c : Category) → c.Object → Except ScriptFault Plan
  | .sequence, q => (s.dropSequence q).map .dropping
  | .table, t => .ok (t.planDrop s)
  | .view, v => .ok (.dropping (s.dropView v))
  | .function, r => .ok (.dropping (s.dropRoutine r))
  | .procedure, r => .ok (.dropping (s.dropRoutine r))

/-- The plan that turns the second object into the first.  Views and routines are
dropped and created anew. -/
def planAlter (s : Spelling) : (c : Category) → c.Object → c.Object → Except ScriptFault Plan
  | .sequence, desired, current => (s.alterSequence desired current).map .creating
  | .table, desired, current => Table.planAlter s desired current
  | .view, desired, current =>
      (s.createView desired).map (.replacing (s.dropView current))
  | .function, desired, current =>
      (s.createRoutine desired).map (.replacing (s.dropRoutine current))
  | .procedure, desired, current =>
      (s.createRoutine desired).map (.replacing (s.dropRoutine current))

end Category

/-- The plan of an item in one direction.  An item whose state calls for an object
that it lacks has none. -/
def Item.plan {c : Category} (s : Spelling) (d : Direction) (i : Item c) :
    Except ScriptFault Plan :=
  match i.stateFor d, i.desired d, i.current d with
  | .added, some desired, _ => c.planCreate s desired
  | .deleted, _, some current => c.planDrop s current
  | .modified, some desired, some current => c.planAlter s desired current
  | .unchanged, _, _ => .ok {}
  | state, _, _ => .error (.missingObject c i.key state)

end Reconcile
