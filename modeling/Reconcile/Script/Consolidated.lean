import Reconcile.Script.Plan
/-!
# Consolidated scripts

One script for a whole comparison in one direction.  Its phases follow from what
depends on what: routines and views go first and come last, foreign keys go before
the indexes and tables they lean on and come after them, and sequences go after the
tables that use them and come before.  An item that has no plan is left out whole.

A foreign key of a table that stays may point at a table that goes.  It is dropped
with the others, once, even when the table's own plan drops it too.
-/

namespace Reconcile

/-- Statements with their terminators, one blank line apart. -/
def Spelling.render (s : Spelling) (statements : List String) : String :=
  Text.joined "\n\n" (statements.map (· ++ s.terminator))

/-- Keeps the first of equal statements. -/
def firsts : List String → List String
  | [] => []
  | s :: rest => s :: (firsts rest).filter (· != s)

/-- An item that could not be planned in one direction, by its category and its
position there. -/
structure Skipped where
  category : Category
  position : Nat
  key : Key
  fault : ScriptFault

def Skipped.message (s : Skipped) : String :=
  (Fault.script s.fault).message

namespace Comparison

variable (s : Spelling) (d : Direction) (r : Comparison)

/-- The plan, or what stands in its way, of every item that differs. -/
def outcomes (c : Category) : List (Nat × Key × Except ScriptFault Plan) :=
  ((r.items c).zipIdx.filter fun (i, _) => i.state != .unchanged).map
    fun (i, n) => (n, i.key, i.plan s d)

/-- The plans of a category's items that could be planned. -/
def plans (c : Category) : List Plan :=
  (r.outcomes s d c).filterMap fun (_, _, outcome) => outcome.toOption

def skippedOf (c : Category) : List Skipped :=
  (r.outcomes s d c).filterMap fun (position, key, outcome) =>
    match outcome with
    | .ok _ => none
    | .error fault => some { category := c, position, key, fault }

/-- All items that could not be planned, in category order. -/
def skipped : List Skipped :=
  Category.all.flatMap (r.skippedOf s d)

/-- Keys of the tables that a script in direction `d` drops. -/
def droppedTables : List Key :=
  (r.tables.filter fun i => i.stateFor d == .deleted).map Item.key

/-- The drops of foreign keys that point at a dropped table from one that stays. -/
def danglingDrops : List String :=
  (r.tables.filter fun i => i.stateFor d != .deleted).flatMap fun i =>
    match i.current d with
    | none => []
    | some t =>
        (t.foreignKeys.filter fun fk => (r.droppedTables d).contains fk.referencedKey).map
          (s.dropForeignKey t)

/-- One kind of statement of all plans of a category. -/
def gather (part : Plan → List String) (c : Category) : List String :=
  (r.plans s d c).flatMap part

/-- The drops of foreign keys of either origin, each text once. -/
def foreignKeyDrops : List String :=
  firsts (r.gather s d Plan.dropForeignKeys .table ++ r.danglingDrops s d)

/-- The statements phase by phase. -/
def phases : List (List String) :=
  [r.gather s d Plan.drops .procedure,
   r.gather s d Plan.drops .function,
   r.gather s d Plan.drops .view,
   r.foreignKeyDrops s d,
   r.gather s d Plan.dropIndexes .table,
   r.gather s d Plan.drops .table,
   r.gather s d Plan.drops .sequence,
   r.gather s d Plan.creates .sequence,
   r.gather s d Plan.creates .table,
   r.gather s d Plan.createIndexes .table,
   r.gather s d Plan.createForeignKeys .table,
   r.gather s d Plan.creates .view,
   r.gather s d Plan.creates .function,
   r.gather s d Plan.creates .procedure]

def statements : List String :=
  (r.phases s d).flatten

/-- The consolidated script. -/
def consolidated : String :=
  s.render (r.statements s d)

end Comparison

end Reconcile
