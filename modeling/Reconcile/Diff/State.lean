/-!
# States of a difference

A difference is read from the side of the script that makes the target look like
the source: what only the source has is added, what only the target has is
deleted.  Read from the other side, the two change places.
-/

namespace Reconcile

inductive DiffState where
  | added
  | deleted
  | modified
  | unchanged
deriving DecidableEq, Repr, Inhabited

namespace DiffState

def label : DiffState → String
  | .added => "Added"
  | .deleted => "Deleted"
  | .modified => "Modified"
  | .unchanged => "Unchanged"

/-- The same difference from the other side. -/
def reversed : DiffState → DiffState
  | .added => .deleted
  | .deleted => .added
  | s => s

/-- The state of two sides of which at least one is there. -/
def classify {α : Type} (equal : α → α → Bool) : Option α → Option α → DiffState
  | some _, none => .added
  | none, some _ => .deleted
  | some s, some t => if equal s t then .unchanged else .modified
  | none, none => .modified

end DiffState

/-- Which database a consolidated script is to run on. -/
inductive Direction where
  /-- Runs on the target and makes it match the source. -/
  | sourceToTarget
  /-- Runs on the source and makes it match the target. -/
  | targetToSource
deriving DecidableEq, Repr, Inhabited

def Direction.reversed : Direction → Direction
  | .sourceToTarget => .targetToSource
  | .targetToSource => .sourceToTarget

end Reconcile
