import Reconcile.Catalog.Database
import Reconcile.Script.Annotation
/-!
# Sessions

A session compares what two crawlers read and writes the scripts, all under one task
tree.  The two crawls take turns; then the models are compared and the comparison is
scripted.  Whatever ends a session early, no task of its tree is left unfinished.
`Session.run` starts from two crawlers and `Session.connectAndRun` from two
connections.
-/

namespace Reconcile

/-- What happens around a session that it has no hand in. -/
structure Surroundings where
  /-- Which crawl goes on, at each pause of either. -/
  turns : List Side := []
  /-- Whether cancellation was requested, at each question of the comparison. -/
  comparing : Polls := fun _ => false
  /-- The same for the questions of the scripting. -/
  scripting : Polls := fun _ => false

/-- Enough turns, one by one, for two crawls to come to their ends. -/
def fairTurns (source target : Crawler) : List Side :=
  alternating (max source.pauses target.pauses + 1)

namespace Session

/-- A tree that no run has used yet. -/
def fresh (clock : Nat → Time := fun _ => 0) : Tracker :=
  .new "schema compare" clock

/-- Marks every unfinished task below the root as cancelled, the subtasks of a task
before the task itself. -/
def abandon : Tracked Unit := do
  Tracked.cancelUnfinished ((← get).root.descendants)

/-- Answers that say yes as soon as the whole run is cancelled. -/
def heeding (polls : Polls) : Tracked Polls := do
  let cancelled := (← get).cancelledAt []
  return fun n => cancelled || polls n

/-- Compares two models and scripts the comparison, each under its own task. -/
def compareAndScript (o : Options) (source target : Model) (comparing scripting : Address)
    (around : Surroundings) : Tracked Comparison := do
  let r ← compare o source target comparing (← heeding around.comparing)
  let polls ← heeding around.scripting
  let (r, outcome) ← scriptComparison (.of r.dialect o) r scripting polls
  match outcome with
  | .ok () => return r
  | .error e => throw e

/-- Crawls, compares and scripts below a root that runs already. -/
def crawlAndCompare (o : Options) (source target : Crawler) (around : Surroundings) :
    Tracked Comparison := do
  let sourceTask ← Tracked.addChild [] "source" 4
  let targetTask ← Tracked.addChild [] "target" 4
  let compareTask ← Tracked.addChild [] "compare" 1
  let scriptTask ← Tracked.addChild [] "script" 2
  try
    let (s, t) ← Activity.together around.turns (crawl source sourceTask)
      (crawl target targetTask)
    compareAndScript o s t compareTask scriptTask around
  catch e =>
    abandon
    throw e

/-- One run of a session.  A tree serves one run; a second is refused at the start. -/
def run (o : Options) (source target : Crawler) (around : Surroundings) :
    Tracked Comparison := do
  Tracked.start []
  Tracked.settling [] (crawlAndCompare o source target around)

/-! ## From connections -/

/-- Reaches both databases.  Of two faults the source's counts. -/
def reachBoth (connection : Side → Connection) (ends : Side → Endpoint) :
    Except Fault (Crawler × Crawler) :=
  let crawler := fun side => ((connection side).crawler (ends side)).mapError Fault.connection
  match crawler .source, crawler .target with
  | .error e, _ => .error e
  | _, .error e => .error e
  | .ok s, .ok t => .ok (s, t)

/-- Connects under a task of its own.  It comes to nothing if cancellation was requested
before or is while a server keeps the login waiting. -/
def connect (connection : Side → Connection) (ends : Side → Endpoint) :
    Tracked (Crawler × Crawler) := do
  let task ← Tracked.addChild [] "connect" 1
  Tracked.start task
  if (ends .source).holdsLogin || (ends .target).holdsLogin then Tracked.attempt [] .cancel
  let outcome := if (← get).cancelledAt [] then .error .cancelled else reachBoth connection ends
  Tracked.settle task outcome

/-- One run of a session between two databases, whose crawls take fair turns. -/
def connectAndRun (o : Options) (connection : Side → Connection) (ends : Side → Endpoint) :
    Tracked Comparison := do
  Tracked.start []
  Tracked.settling [] do
    let (source, target) ← connect connection ends
    crawlAndCompare o source target { turns := fairTurns source target }

end Session

end Reconcile
