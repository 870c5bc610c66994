/-!
# Status of a task

A task is created, may run, and ends completed, faulted or cancelled.  It cannot
complete without having run, and an end is final.
-/

namespace Reconcile

inductive Status where
  | created
  | running
  | completed
  | faulted
  | cancelled
deriving DecidableEq, Repr, Inhabited

namespace Status

def label : Status → String
  | .created => "created"
  | .running => "running"
  | .completed => "completed"
  | .faulted => "faulted"
  | .cancelled => "cancelled"

def isFinal : Status → Bool
  | .completed | .faulted | .cancelled => true
  | .created | .running => false

/-- Whether a task may pass from the first status to the second. -/
def allows : Status → Status → Bool
  | .created, .running => true
  | .running, .completed => true
  | .created, .faulted => true
  | .running, .faulted => true
  | .created, .cancelled => true
  | .running, .cancelled => true
  | _, _ => false

end Status

end Reconcile
