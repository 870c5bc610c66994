import Reconcile.Task.Activity
/-!
# Readings

A reading is how a crawler goes about one category: the queries that it sends, the
progress that it reports on its task, the moments at which it asks whether to stop,
and what it finds in the end.  It knows its task by no other name than "the task", so
a reading cannot touch any other.
-/

namespace Reconcile

inductive Reading (α : Type) where
  | done (outcome : Except Fault α)
  | query (q : Query) (next : Reading α)
  /-- Waits, and lets others go on. -/
  | pause (next : Reading α)
  /-- Cancellation of the whole run is requested meanwhile. -/
  | interrupt (next : Reading α)
  /-- Asks whether cancellation was requested. -/
  | poll (next : Bool → Reading α)
  /-- Reports so many objects done of so many found. -/
  | progress (done found : Nat) (next : Reading α)
  | message (text : String) (next : Reading α)

namespace Reading

variable {α β : Type}

def bind (f : α → Reading β) : Reading α → Reading β
  | .done (.ok a) => f a
  | .done (.error e) => .done (.error e)
  | .query q next => .query q (next.bind f)
  | .pause next => .pause (next.bind f)
  | .interrupt next => .interrupt (next.bind f)
  | .poll next => .poll fun b => (next b).bind f
  | .progress n m next => .progress n m (next.bind f)
  | .message s next => .message s (next.bind f)

instance : Monad Reading where
  pure a := .done (.ok a)
  bind r f := r.bind f

def fail (e : Fault) : Reading α :=
  .done (.error e)

def ofExcept : Except CrawlFault α → Reading α
  | .ok a => pure a
  | .error e => fail (.crawl e)

/-- Pauses if `b` says so. -/
def pauseIf (b : Bool) : Reading Unit :=
  if b then .pause (pure ()) else pure ()

def interruptIf (b : Bool) : Reading Unit :=
  if b then .interrupt (pure ()) else pure ()

/-- Stops as cancelled once cancellation was requested. -/
def checkpoint : Reading Unit :=
  .poll fun cancelled => if cancelled then fail .cancelled else pure ()

def report (done found : Nat) : Reading Unit :=
  .progress done found (pure ())

/-- Works through the last of `found` things, asking before each whether to stop and
reporting each when it is done. -/
def each (f : α → Reading β) (found : Nat) : List α → Reading (List β)
  | [] => pure []
  | a :: rest => do
      checkpoint
      let b ← f a
      report (found - rest.length) found
      let bs ← each f found rest
      return b :: bs

/-- The activity of a reading whose task stands at an address. -/
def under (task : Address) : Reading α → Activity α
  | .done outcome => .done outcome
  | .query q next => .ask (.query q) (next.under task)
  | .pause next => .pause (next.under task)
  | .interrupt next => .step (·.attempt [] .cancel) fun _ => next.under task
  | .poll next => do
      let cancelled ← Activity.isCancelled
      (next cancelled).under task
  | .progress n m next => do
      Activity.lift (Tracked.setProgress task n m)
      next.under task
  | .message s next => do
      Activity.lift (Tracked.setMessage task s)
      next.under task

/-- The most pauses on any course that a reading can take. -/
def pauses : Reading α → Nat
  | .done _ => 0
  | .query _ next => next.pauses
  | .pause next => next.pauses + 1
  | .interrupt next => next.pauses
  | .poll next => max (next true).pauses (next false).pauses
  | .progress _ _ next => next.pauses
  | .message _ next => next.pauses

/-- The queries sent, where `cancelled` says whether cancellation was requested before. -/
def queries (cancelled : Bool) : Reading α → List Query
  | .done _ => []
  | .query q next => q :: next.queries cancelled
  | .pause next => next.queries cancelled
  | .interrupt next => next.queries true
  | .poll next => (next cancelled).queries cancelled
  | .progress _ _ next => next.queries cancelled
  | .message _ next => next.queries cancelled

/-- How a reading comes out, where `cancelled` says whether cancellation was requested
before and nobody else requests it meanwhile. -/
def answer (cancelled : Bool) : Reading α → Except Fault α
  | .done outcome => outcome
  | .query _ next => next.answer cancelled
  | .pause next => next.answer cancelled
  | .interrupt next => next.answer true
  | .poll next => (next cancelled).answer cancelled
  | .progress _ _ next => next.answer cancelled
  | .message _ next => next.answer cancelled

/-- Whether cancellation was requested when the reading has come to its end. -/
def endsCancelled (cancelled : Bool) : Reading α → Bool
  | .done _ => cancelled
  | .query _ next => next.endsCancelled cancelled
  | .pause next => next.endsCancelled cancelled
  | .interrupt next => next.endsCancelled true
  | .poll next => (next cancelled).endsCancelled cancelled
  | .progress _ _ next => next.endsCancelled cancelled
  | .message _ next => next.endsCancelled cancelled

end Reading

end Reconcile
