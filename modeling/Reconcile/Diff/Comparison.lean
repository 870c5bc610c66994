import Reconcile.Diff.TableDiff
import Reconcile.Task.Tracker
/-!
# Comparisons

A comparison lists, category by category and by ascending key, every object that
either of two models holds, with its state and, for a table on both sides, the
differences inside it.  `Comparison.between` is that list; `compare` is the same
list computed under a task, which it ends according to the outcome.
-/

namespace Reconcile

/-- What an item says beside its state: for tables the differences inside. -/
abbrev Category.Detail : Category → Type
  | .table => TableDiff
  | .sequence => Unit
  | .view => Unit
  | .function => Unit
  | .procedure => Unit

/-- One object of a comparison, and its scripts once they are written. -/
structure Item (c : Category) where
  key : Key
  state : DiffState
  source : Option c.Object
  target : Option c.Object
  detail : c.Detail
  sourceCreate : String := ""
  targetCreate : String := ""
  alter : String := ""
  /-- Why the object could not be scripted. -/
  fault : Option String := none

namespace Category

def emptyDetail : (c : Category) → c.Detail
  | .table => {}
  | .sequence => ()
  | .view => ()
  | .function => ()
  | .procedure => ()

def detailBetween (o : Options) : (c : Category) → c.Object → c.Object → c.Detail
  | .table, s, t => TableDiff.between o s t
  | .sequence, _, _ => ()
  | .view, _, _ => ()
  | .function, _, _ => ()
  | .procedure, _, _ => ()

/-- Whether two objects of one key are the same under the options. -/
def equal (o : Options) : (c : Category) → c.Object → c.Object → Bool
  | .sequence, s, t => sequencesEqual s t
  | .table, s, t => (TableDiff.between o s t).isUnchanged
  | .view, s, t => viewsEqual s t
  | .function, s, t => routinesEqual s t
  | .procedure, s, t => routinesEqual s t

end Category

namespace Item

variable {c : Category}

def ofSides (o : Options) (key : Key) (source target : Option c.Object) : Item c :=
  { key
    state := DiffState.classify (c.equal o) source target
    source
    target
    detail := match source, target with
      | some s, some t => c.detailBetween o s t
      | _, _ => c.emptyDetail }

/-- The state as a script that runs in direction `d` sees it. -/
def stateFor (i : Item c) : Direction → DiffState
  | .sourceToTarget => i.state
  | .targetToSource => i.state.reversed

/-- The object that a script in direction `d` is to bring about. -/
def desired (i : Item c) : Direction → Option c.Object
  | .sourceToTarget => i.source
  | .targetToSource => i.target

/-- The object that a script in direction `d` finds. -/
def current (i : Item c) : Direction → Option c.Object
  | .sourceToTarget => i.target
  | .targetToSource => i.source

end Item

/-- Items of one category for two collections of its objects. -/
def itemsBetween (o : Options) (c : Category) (source target : Keyed c.Object) :
    List (Item c) :=
  (source.unionKeys target).map fun k => .ofSides o k (source.find? k) (target.find? k)

/-! ## Comparisons -/

structure Comparison where
  dialect : Dialect
  options : Options
  sequences : List (Item .sequence) := []
  tables : List (Item .table) := []
  views : List (Item .view) := []
  functions : List (Item .function) := []
  procedures : List (Item .procedure) := []
  /-- The consolidated script to run on the target, once it is written. -/
  forward : Option String := none
  /-- The consolidated script to run on the source, once it is written. -/
  backward : Option String := none

/-- Number of items per state. -/
structure StateCounts where
  added : Nat
  deleted : Nat
  modified : Nat
  unchanged : Nat
deriving DecidableEq, Repr

def StateCounts.changed (n : StateCounts) : Nat :=
  n.added + n.deleted + n.modified

namespace Comparison

def items (r : Comparison) : (c : Category) → List (Item c)
  | .sequence => r.sequences
  | .table => r.tables
  | .view => r.views
  | .function => r.functions
  | .procedure => r.procedures

/-- The comparison with `f` applied to every item. -/
def mapItems (f : (c : Category) → Item c → Item c) (r : Comparison) : Comparison :=
  { r with
    sequences := r.sequences.map (f .sequence)
    tables := r.tables.map (f .table)
    views := r.views.map (f .view)
    functions := r.functions.map (f .function)
    procedures := r.procedures.map (f .procedure) }

def between (o : Options) (source target : Model) : Comparison :=
  { dialect := source.dialect
    options := o
    sequences := itemsBetween o .sequence source.sequences target.sequences
    tables := itemsBetween o .table source.tables target.tables
    views := itemsBetween o .view source.views target.views
    functions := itemsBetween o .function source.functions target.functions
    procedures := itemsBetween o .procedure source.procedures target.procedures }

/-- Category, key and state of every item, in category order. -/
def states (r : Comparison) : List (Category × Key × DiffState) :=
  Category.all.flatMap fun c => (r.items c).map fun i => (c, i.key, i.state)

def counts (r : Comparison) (c : Category) : StateCounts :=
  let states := (r.items c).map Item.state
  { added := states.count .added
    deleted := states.count .deleted
    modified := states.count .modified
    unchanged := states.count .unchanged }

/-- No object differs. -/
def isEmpty (r : Comparison) : Bool :=
  Category.all.all fun c => (r.counts c).changed == 0

def script (r : Comparison) : Direction → Option String
  | .sourceToTarget => r.forward
  | .targetToSource => r.backward

end Comparison

/-! ## Comparing under a task -/

/-- Answers to the question whether cancellation was requested, in the order it is
asked. -/
abbrev Polls : Type := Nat → Bool

namespace Tracked

/-- Reports the last `left` of `total` steps on a task, asking before each. -/
def sweep (task : Address) (total : Nat) (polls : Polls) : Nat → Tracked Unit
  | 0 => pure ()
  | left + 1 => do
      if polls (total - (left + 1)) then throw .cancelled
      setProgress task (total - left) total
      sweep task total polls left

/-- Sweeps through categories, each under its own task. -/
def sweepCategories (total : Category → Nat) (polls : Polls) :
    List (Category × Address) → Tracked Unit
  | [] => pure ()
  | (c, task) :: rest => do
      start task
      settling task (sweep task (total c) polls (total c))
      sweepCategories total (fun n => polls (total c + n)) rest

end Tracked

/-- Compares two models under a task, with a subtask for every category that counts
its objects.  Before each object it is asked whether to stop. -/
def compare (o : Options) (source target : Model) (task : Address) (polls : Polls) :
    Tracked Comparison := do
  if source.dialect ≠ target.dialect then
    let fault := Fault.dialects (.models source.dialect target.dialect)
    Tracked.attempt task (.fault fault.message)
    throw fault
  Tracked.start task
  Tracked.settling task do
    let tasks ← Tracked.addCategories task
    let total := fun c => ((source.objects c).unionKeys (target.objects c)).length
    try Tracked.sweepCategories total polls tasks
    catch e =>
      Tracked.cancelUnfinished (tasks.map Prod.snd)
      throw e
    return .between o source target

end Reconcile
