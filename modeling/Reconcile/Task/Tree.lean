import Reconcile.Fault
/-!
# Task trees

A task is a node with its own values and its subtasks in the order they were
added.  A node that has subtasks shows the weighted mean of their percentages; a
leaf shows its own.  `Task.perform` says what each operation does to the node it is
asked of, and which changes it announces; a refused operation does neither.  Passing to
another status takes down the time at which it happens, which is given.

Nodes are addressed by positions from the root down.  Subtasks are only ever added
at the end, so an address stays that of its node.
-/

namespace Reconcile

/-- A moment, by its distance from the epoch. -/
abbrev Time : Type := Int

/-- What a node keeps for itself. -/
structure TaskState where
  name : String
  /-- How often the node counts in the mean of its parent. -/
  weight : Float := 1
  status : Status := .created
  percentage : Float := 0
  message : String := ""
  startedAt : Option Time := none
  /-- When the node ended, in whatever way. -/
  completedAt : Option Time := none
  /-- Cancellation was requested of this very node. -/
  cancelRequested : Bool := false
deriving Inhabited

namespace TaskState

def started (s : TaskState) : Bool := s.startedAt.isSome

def completed (s : TaskState) : Bool := s.completedAt.isSome

end TaskState

inductive Task where
  | node (state : TaskState) (children : List Task)
deriving Inhabited

/-- Positions of subtasks from the root down. -/
abbrev Address : Type := List Nat

/-- A change of one node, as it is announced. -/
inductive Change where
  | child (position : Nat) (name : String)
  | status (value : Status)
  | progress (value : Float)
  | message (value : String)

inductive TaskOp where
  | addChild (name : String) (weight : Float)
  | setPercentage (value : Float)
  | setMessage (text : String)
  | start
  | complete
  | fault (message : String)
  | markCancelled
  /-- Requests cancellation of the node and all below it; no node changes status. -/
  | cancel

namespace Task

def fresh (name : String) (weight : Float) : Task :=
  .node { name := name, weight := weight } []

def state : Task → TaskState
  | .node s _ => s

def children : Task → List Task
  | .node _ cs => cs

def name (t : Task) : String := t.state.name

def status (t : Task) : Status := t.state.status

def isLeaf (t : Task) : Bool := t.children.isEmpty

/-! ## Percentages -/

mutual

/-- The node's own percentage, or the weighted mean of its subtasks. -/
def percentage : Task → Float
  | .node s [] => s.percentage
  | .node _ (c :: cs) =>
      let (sum, weights) := weightedSum 0 0 (c :: cs)
      sum / weights

/-- Sum of percentages times weights, and sum of weights, added from the left. -/
def weightedSum (sum weights : Float) : List Task → Float × Float
  | [] => (sum, weights)
  | .node s gs :: cs =>
      weightedSum (sum + percentage (.node s gs) * s.weight) (weights + s.weight) cs

end

/-- The percentage within 0 and 100; what is not a number stays so. -/
def clamped (value : Float) : Float :=
  let value := if value < 0 then 0 else value
  if 100 < value then 100 else value

/-- The percentage of `processed` out of `total`, where all of nothing is done. -/
def share (processed total : Nat) : Float :=
  if total = 0 then 100 else Float.ofNat processed * 100 / Float.ofNat total

/-! ## Operations -/

/-- Passes at the time `now` to the status `next` and keeps `message`, if there is one. -/
def transition (now : Time) (next : Status) (message : Option String) :
    Task → Except TaskFault (Task × List Change)
  | .node s cs =>
      if s.status.allows next then
        let s := if next = .running then { s with startedAt := some now }
          else { s with completedAt := some now }
        let s := if next = .completed ∧ cs.isEmpty then { s with percentage := 100 } else s
        let s := { s with message := message.getD s.message, status := next }
        .ok (.node s cs, (message.map Change.message).toList ++ [.status next])
      else .error (.transition s.name s.status next)

/-- What an operation makes of a node at the time `now`, and the changes it announces. -/
def perform (now : Time) : TaskOp → Task → Except TaskFault (Task × List Change)
  | .addChild name weight, .node s cs =>
      if ¬ 0 < weight then .error (.weightNotPositive name)
      else if s.status.isFinal then .error (.childOfFinal name s.status s.name)
      else .ok (.node s (cs ++ [fresh name weight]), [.child cs.length name])
  | .setPercentage value, .node s cs =>
      if ¬ cs.isEmpty then .error (.percentageOfParent s.name)
      else if s.status.isFinal then .error (.progressOfFinal s.status s.name)
      else
        let value := clamped value
        .ok (.node { s with percentage := value } cs, [.progress value])
  | .setMessage text, .node s cs =>
      if s.status.isFinal then .error (.messageOfFinal s.status s.name)
      else .ok (.node { s with message := text } cs, [.message text])
  | .start, t => t.transition now .running none
  | .complete, t => t.transition now .completed none
  | .fault message, t => t.transition now .faulted (some message)
  | .markCancelled, t => t.transition now .cancelled none
  | .cancel, .node s cs => .ok (.node { s with cancelRequested := true } cs, [])

/-! ## Addresses -/

def at? : Address → Task → Option Task
  | [], t => some t
  | i :: a, .node _ cs =>
      match cs[i]? with
      | some c => c.at? a
      | none => none

/-- The tree with `t` for the node at an address, or the same tree if there is none. -/
def replaceAt (new : Task) : Address → Task → Task
  | [], _ => new
  | i :: a, .node s cs =>
      match cs[i]? with
      | some c => .node s (cs.set i (replaceAt new a c))
      | none => .node s cs

/-- Whether cancellation was requested of the node at an address or of a node above it. -/
def cancelledAt : Address → Task → Bool
  | [], t => t.state.cancelRequested
  | i :: a, .node s cs =>
      s.cancelRequested
        || match cs[i]? with
          | some c => c.cancelledAt a
          | none => false

mutual

/-- The addresses of all nodes below a node, each after those below it. -/
def descendants : Task → List Address
  | .node _ cs => descendantsFrom 0 cs

/-- The addresses of subtasks from position `i` on and of all nodes below them. -/
def descendantsFrom (i : Nat) : List Task → List Address
  | [] => []
  | c :: cs => (descendants c).map (i :: ·) ++ [i] :: descendantsFrom (i + 1) cs

end

/-- The names on the way to an address, the root's first. -/
def namesTo : Address → Task → List String
  | [], t => [t.name]
  | i :: a, .node s cs =>
      s.name ::
        match cs[i]? with
        | some c => c.namesTo a
        | none => []

end Task

end Reconcile
