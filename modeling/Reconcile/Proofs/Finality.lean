import Reconcile.Proofs.Operations

/-!
# Trees that have ended

Once every node of a tree has ended, nothing changes any more.  Every operation on any
node is refused, whatever is tried and in whatever order; all that can still happen is
that cancellation is requested, which nobody sees (`AllFinal.recorded_attemptAll`).
-/

namespace Reconcile

/-- A node that has ended refuses every operation but the request to cancel it. -/
theorem Task.perform_of_final {op : TaskOp} {s : TaskState} (now : Time) (cs : List Task)
    (hfinal : s.status.isFinal = true) (hop : op ≠ .cancel) :
    ∃ e, (Task.node s cs).perform now op = .error e := by
  have hallows : ∀ next, s.status.allows next = false := by
    intro next
    revert hfinal
    cases s.status <;> cases next <;> decide
  have htransition : ∀ next message,
      (Task.node s cs).transition now next message
        = .error (.transition s.name s.status next) := by
    intro next message
    rw [Task.transition_eq, hallows, if_neg Bool.false_ne_true]
  cases op with
  | addChild name weight =>
      by_cases hweight : 0 < weight
      · exact ⟨.childOfFinal name s.status s.name, by simp [Task.perform, hweight, hfinal]⟩
      · exact ⟨.weightNotPositive name, by simp [Task.perform, hweight]⟩
  | setPercentage value =>
      cases hleaf : cs.isEmpty with
      | true => exact ⟨.progressOfFinal s.status s.name, by simp [Task.perform, hleaf, hfinal]⟩
      | false => exact ⟨.percentageOfParent s.name, by simp [Task.perform, hleaf]⟩
  | setMessage text => exact ⟨.messageOfFinal s.status s.name, by simp [Task.perform, hfinal]⟩
  | start => exact ⟨_, htransition .running none⟩
  | complete => exact ⟨_, htransition .completed none⟩
  | fault message => exact ⟨_, htransition .faulted (some message)⟩
  | markCancelled => exact ⟨_, htransition .cancelled none⟩
  | cancel => exact absurd rfl hop

namespace Tracker

variable {tr : Tracker} {a : Address} {t : Task} {op : TaskOp}

/-- Every node of the tree has ended. -/
def AllFinal (tr : Tracker) : Prop :=
  ∀ a s, tr.told a = some s → s.status.isFinal = true

theorem AllFinal.status (h : tr.AllFinal) (hnode : tr.at? a = some t) :
    t.status.isFinal = true :=
  h a t.state.told (holds_of_at? hnode).told_self

theorem AllFinal.perform (h : tr.AllFinal) (hnode : tr.at? a = some t) (hop : op ≠ .cancel) :
    ∃ e, tr.perform a op = .error e := by
  obtain ⟨s, cs⟩ := t
  have hfinal : s.status.isFinal = true := h.status hnode
  obtain ⟨e, hrefused⟩ := Task.perform_of_final tr.now cs hfinal hop
  refine ⟨e, ?_⟩
  rw [perform_of_at? hnode, hrefused]

theorem AllFinal.refuses (h : tr.AllFinal) (hnode : tr.at? a = some t) (hop : op ≠ .cancel) :
    ∃ e, (Tracked.perform a op).on tr = (.error (.task e), tr) := by
  obtain ⟨e, hrefused⟩ := h.perform hnode hop
  exact ⟨e, Tracked.on_perform_error hrefused⟩

/-- Attempts at operations, one after another, each on a node of its own. -/
def attemptAll (tr : Tracker) (ops : List (Address × TaskOp)) : Tracker :=
  ops.foldl (fun tr x => tr.attempt x.1 x.2) tr

theorem AllFinal.recorded_attempt (h : tr.AllFinal) (a : Address) (op : TaskOp) :
    (tr.attempt a op).recorded = tr.recorded := by
  by_cases hop : op = .cancel
  · rw [hop, attempt_cancel_recorded]
  · cases hnode : tr.at? a with
    | none =>
        rw [attempt_of_ok (perform_of_none hnode)]
    | some t =>
        obtain ⟨e, hrefused⟩ := h.perform hnode hop
        rw [attempt_of_error hrefused]

theorem AllFinal.of_recorded {tr' : Tracker} (h : tr.AllFinal)
    (hsame : tr'.recorded = tr.recorded) : tr'.AllFinal := by
  intro a s hs
  rw [told_of_recorded (congrFun hsame a)] at hs
  exact h a s hs

/-- Whatever is attempted, the records stay the same, the times included. -/
theorem AllFinal.recorded_attemptAll (h : tr.AllFinal) (ops : List (Address × TaskOp)) :
    (tr.attemptAll ops).recorded = tr.recorded := by
  induction ops generalizing tr with
  | nil => rfl
  | cons x rest ih =>
      have hfirst := h.recorded_attempt x.1 x.2
      exact (ih (h.of_recorded hfirst)).trans hfirst

theorem AllFinal.attemptAll (h : tr.AllFinal) (ops : List (Address × TaskOp)) :
    (tr.attemptAll ops).AllFinal :=
  h.of_recorded (h.recorded_attemptAll ops)

end Tracker

end Reconcile
