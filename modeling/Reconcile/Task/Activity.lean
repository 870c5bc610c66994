import Reconcile.Task.Tracker
/-!
# Activities

An activity is tracked work that may be suspended.  It goes step by step, each step
changing the tracker at once, and between steps it may pause and let others go on.  On
the way it may ask something of the world outside, which `asked` lists.

`run` takes an activity to its end without looking at the pauses, and
`together turns a b` runs two of them on one thread, in turns that change at pauses.
When one of the two fails, the other is never continued.
-/

namespace Reconcile

/-- A query as it is sent, with its text parameters. -/
structure Query where
  text : String
  parameters : List String := []
deriving DecidableEq, Repr, Inhabited

/-- A query written over several lines, with a blank between them. -/
def Query.ofLines (lines : List String) (parameters : List String := []) : Query :=
  { text := " ".intercalate lines, parameters := parameters }

/-- What an activity asks of the world outside. -/
inductive Inquiry where
  /-- A crawler is asked for the objects of a category. -/
  | category (c : Category)
  /-- A query is sent to a database. -/
  | query (q : Query)
deriving DecidableEq, Repr

def Inquiry.query? : Inquiry → Option Query
  | .category _ => none
  | .query q => some q

inductive Activity (α : Type) where
  | done (outcome : Except Fault α)
  | pause (next : Activity α)
  | ask (inquiry : Inquiry) (next : Activity α)
  /-- Changes the tracker; what comes next may depend on how the tracker was before. -/
  | step (change : Tracker → Tracker) (next : Tracker → Activity α)

namespace Activity

variable {α β : Type}

/-- Continues with `f` from any outcome, a failure included. -/
def andThen (f : Except Fault α → Activity β) : Activity α → Activity β
  | .done outcome => f outcome
  | .pause next => .pause (next.andThen f)
  | .ask inquiry next => .ask inquiry (next.andThen f)
  | .step change next => .step change fun tr => (next tr).andThen f

instance : Monad Activity where
  pure a := .done (.ok a)
  bind a f := a.andThen fun
    | .ok x => f x
    | .error e => .done (.error e)

def fail (e : Fault) : Activity α :=
  .done (.error e)

/-- Tracked work as one step. -/
def lift (work : Tracked α) : Activity α :=
  .step (fun tr => (work.on tr).2) fun tr => .done (work.on tr).1

/-- Whether cancellation was requested of the whole tree. -/
def isCancelled : Activity Bool :=
  .step id fun tr => .done (.ok (tr.cancelledAt []))

/-- Ends a task according to the outcome of an activity. -/
def settling (task : Address) (a : Activity α) : Activity α :=
  a.andThen fun outcome => lift (Tracked.settle task outcome)

/-! ## Running -/

def run : Activity α → Tracked α
  | .done outcome => ExceptT.mk (pure outcome)
  | .pause next => next.run
  | .ask _ next => next.run
  | .step change next => fun tr => (next tr).run (change tr)

/-- What an activity that runs to its end asks on the way. -/
def asked : Activity α → Tracker → List Inquiry
  | .done _, _ => []
  | .pause next, tr => next.asked tr
  | .ask inquiry next, tr => inquiry :: next.asked tr
  | .step change next, tr => (next tr).asked (change tr)

/-- Runs up to the next pause or the end, and answers what is left. -/
def untilPause : Activity α → Tracker → Activity α × Tracker
  | .done outcome, tr => (.done outcome, tr)
  | .pause next, tr => (next, tr)
  | .ask _ next, tr => next.untilPause tr
  | .step change next, tr => (next tr).untilPause (change tr)

/-- Runs up to the next pause, and fails if the activity has failed. -/
def resume (a : Activity α) : Tracked (Activity α) := fun tr =>
  match a.untilPause tr with
  | (.done (.error e), tr) => (.error e, tr)
  | (a, tr) => (.ok a, tr)

/-- Runs two activities, at each of the `turns` one of them up to its next pause.
After the last turn the source's goes on to its end and then the target's. -/
def together : List Side → Activity α → Activity β → Tracked (α × β)
  | [], a, b => do return (← a.run, ← b.run)
  | .source :: turns, a, b => do together turns (← a.resume) b
  | .target :: turns, a, b => do together turns a (← b.resume)

end Activity

/-- So many turns for each side, the source first. -/
def alternating : Nat → List Side
  | 0 => []
  | n + 1 => .source :: .target :: alternating n

end Reconcile
