import Reconcile.Task.Tree
/-!
# Tracked work

A tracker is a task tree together with everything announced of it so far.  Work
that reports on its progress is a `Tracked` computation: it threads the tracker
through and may fail, and a failure keeps what was reported before it.

A task takes the time only when it passes to another status, and this is announced.  So
what the clock shows is a function of the number of announcements before: no two
passings look at it at the same number, and it may show them any times at all.

A subscriber reads the announcements from where it joined on.  Only the newest 256
wait for it; of what fell out of that window it learns the number.
-/

namespace Reconcile

/-- A change and the address of the node that it happened to. -/
structure Event where
  task : Address
  change : Change

structure Tracker where
  root : Task
  log : List Event := []
  /-- What the clock shows after so many announcements. -/
  clock : Nat → Time := fun _ => 0

namespace Tracker

def new (name : String) (clock : Nat → Time := fun _ => 0) : Tracker :=
  { root := .fresh name 1, clock := clock }

def now (tr : Tracker) : Time :=
  tr.clock tr.log.length

def at? (tr : Tracker) (a : Address) : Option Task :=
  tr.root.at? a

/-- Performs an operation on the node at an address.  There is nothing to do, and so
nothing to refuse, where there is no node. -/
def perform (tr : Tracker) (a : Address) (op : TaskOp) : Except TaskFault Tracker :=
  match tr.root.at? a with
  | none => .ok tr
  | some t =>
      match t.perform tr.now op with
      | .error e => .error e
      | .ok (t, changes) =>
          .ok { tr with
            root := Task.replaceAt t a tr.root
            log := tr.log ++ changes.map (⟨a, ·⟩) }

/-- Performs an operation, or leaves the tracker as it is if that is refused. -/
def attempt (tr : Tracker) (a : Address) (op : TaskOp) : Tracker :=
  match tr.perform a op with
  | .ok tr => tr
  | .error _ => tr

def cancelledAt (tr : Tracker) (a : Address) : Bool :=
  tr.root.cancelledAt a

/-! ## Subscribers -/

/-- How many announcements wait for a subscriber that does not read. -/
def window : Nat := 256

inductive Delivery where
  | event (event : Event)
  /-- So many announcements were lost. -/
  | lagged (count : Nat)

/-- What a subscriber finds that has read the first `seen` announcements. -/
def deliveries (tr : Tracker) (seen : Nat) : List Delivery :=
  let waiting := tr.log.drop seen
  let lost := waiting.length - window
  let kept := (waiting.drop lost).map Delivery.event
  if lost = 0 then kept else .lagged lost :: kept

end Tracker

/-! ## Computations -/

abbrev Tracked : Type → Type := ExceptT Fault (StateM Tracker)

namespace Tracked

/-- Runs tracked work. -/
def on {α : Type} (work : Tracked α) (tr : Tracker) : Except Fault α × Tracker :=
  work.run.run tr

def perform (a : Address) (op : TaskOp) : Tracked Unit := do
  match (← get).perform a op with
  | .ok tr => set tr
  | .error e => throw (.task e)

/-- Performs an operation and goes on if it is refused. -/
def attempt (a : Address) (op : TaskOp) : Tracked Unit :=
  modify (·.attempt a op)

def start (a : Address) : Tracked Unit := perform a .start

def setMessage (a : Address) (text : String) : Tracked Unit := perform a (.setMessage text)

def setPercentage (a : Address) (value : Float) : Tracked Unit :=
  perform a (.setPercentage value)

def setProgress (a : Address) (processed total : Nat) : Tracked Unit :=
  setPercentage a (Task.share processed total)

/-- Adds a subtask and answers its address. -/
def addChild (a : Address) (name : String) (weight : Float) : Tracked Address := do
  let position := match (← get).at? a with
    | some t => t.children.length
    | none => 0
  perform a (.addChild name weight)
  return a ++ [position]

/-- Adds a subtask for every category. -/
def addCategories (a : Address) : Tracked (List (Category × Address)) :=
  Category.all.mapM fun c => do return (c, ← addChild a c.label 1)

/-- The operation that ends a task whose work came out so. -/
def ending {α : Type} : Except Fault α → TaskOp
  | .ok _ => .complete
  | .error .cancelled => .markCancelled
  | .error e => .fault e.message

/-- Ends a task as the outcome of its work says, unless it has ended already. -/
def settle {α : Type} (a : Address) (outcome : Except Fault α) : Tracked α := do
  attempt a (ending outcome)
  ExceptT.mk (pure outcome)

/-- Does work and ends its task accordingly. -/
def settling {α : Type} (a : Address) (work : Tracked α) : Tracked α := fun tr =>
  let (outcome, tr) := work.on tr
  (settle a outcome).on tr

/-- Marks the unfinished ones of several tasks as cancelled. -/
def cancelUnfinished (tasks : List Address) : Tracked Unit :=
  tasks.forM fun a => do
    match (← get).at? a with
    | some t => if t.status.isFinal then pure () else attempt a .markCancelled
    | none => pure ()

end Tracked

end Reconcile
