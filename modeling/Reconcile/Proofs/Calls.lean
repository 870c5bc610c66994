import Reconcile.Proofs.Operations

/-!
# Calls on the nodes of a tree

Whoever holds a node of a task tree may ask something of it at any time.  `TaskCall` lists
what there is to ask.  Every call comes down to an attempt at one operation (`on_made`):
either the node does what is asked or all stays as it was, and only a settling answers with
something else than whether it went through, namely with the outcome that it was given.

What an operation that goes through does to a node is said once, by `Task.Step`.
-/

namespace Reconcile

/-! ## What a node does -/

/-- What may come of a node that keeps `s` and has the subtasks `cs`, and what is announced
of it. -/
inductive Task.Step (s : TaskState) (cs : List Task) : Task → List Change → Prop where
  | heeded : Step s cs (.node { s with cancelRequested := true } cs) []
  | progressed (value : Float) (hopen : s.status.isFinal = false) (hleaf : cs = []) :
      Step s cs (.node { s with percentage := value } cs) [.progress value]
  | said (text : String) (hopen : s.status.isFinal = false) :
      Step s cs (.node { s with message := text } cs) [.message text]
  | passed (now : Time) (next : Status) (message : Option String)
      (hallows : s.status.allows next = true) :
      Step s cs (.node (s.passedAt now next message cs.isEmpty) cs)
        ((message.map Change.message).toList ++ [.status next])
  | grew (name : String) (weight : Float) (hopen : s.status.isFinal = false) :
      Step s cs (.node s (cs ++ [.node (.fresh name weight) []])) [.child cs.length name]

theorem Status.not_final_of_allows {s next : Status} (h : s.allows next = true) :
    s.isFinal = false := by
  revert h
  cases s <;> cases next <;> decide

namespace Task

variable {s : TaskState} {cs : List Task} {t : Task} {changes : List Change}

theorem step_of_transition {now : Time} {next : Status} {message : Option String}
    (h : (node s cs).transition now next message = .ok (t, changes)) : Step s cs t changes := by
  rw [transition_eq] at h
  split at h
  · next hallows =>
      cases h
      exact .passed now next message hallows
  · cases h

/-- An operation that goes through does one of these things. -/
theorem step_of_perform {now : Time} {op : TaskOp}
    (h : (node s cs).perform now op = .ok (t, changes)) : Step s cs t changes := by
  cases op with
  | addChild name weight =>
      simp only [perform] at h
      split at h
      · cases h
      · split at h
        · cases h
        · next hopen =>
            cases h
            exact .grew name weight (Bool.not_eq_true _ ▸ hopen)
  | setPercentage value =>
      simp only [perform] at h
      split at h
      · cases h
      · next hleaf =>
          split at h
          · cases h
          · next hopen =>
              cases h
              have hnone : cs = [] := by simpa using hleaf
              exact .progressed (clamped value) (Bool.not_eq_true _ ▸ hopen) hnone
  | setMessage text =>
      simp only [perform] at h
      split at h
      · cases h
      · next hopen =>
          cases h
          exact .said text (Bool.not_eq_true _ ▸ hopen)
  | start => exact step_of_transition h
  | complete => exact step_of_transition h
  | fault message => exact step_of_transition h
  | markCancelled => exact step_of_transition h
  | cancel =>
      cases h
      exact .heeded

end Task

/-- An attempt leaves all as it was, or the node there takes a step. -/
theorem Tracker.attempt_cases (tr : Tracker) (a : Address) (op : TaskOp) :
    tr.attempt a op = tr ∨ ∃ s cs t changes, tr.at? a = some (.node s cs)
      ∧ Task.Step s cs t changes ∧ tr.attempt a op = tr.put a t changes := by
  cases hnode : tr.at? a with
  | none => exact Or.inl (attempt_of_ok (perform_of_none hnode))
  | some t =>
      obtain ⟨s, cs⟩ := t
      have hperform : tr.perform a op = _ := perform_of_at? hnode
      cases hstep : (Task.node s cs).perform tr.now op with
      | error e =>
          rw [hstep] at hperform
          exact Or.inl (attempt_of_error hperform)
      | ok result =>
          obtain ⟨t, changes⟩ := result
          rw [hstep] at hperform
          exact Or.inr ⟨s, cs, t, changes, rfl, Task.step_of_perform hstep,
            attempt_of_ok hperform⟩

/-! ## What may be asked -/

/-- What may be asked of a node. -/
inductive TaskCall where
  | addChild (name : String)
  | addWeightedChild (name : String) (weight : Float)
  | setPercentage (value : Float)
  | setProgress (processed total : Nat)
  | setMessage (text : String)
  | start
  | complete
  | fault (message : String)
  | markCancelled
  | cancel
  | settle (outcome : Except Fault Unit)

namespace TaskCall

/-- The work of a call on the node at an address. -/
def made (a : Address) : TaskCall → Tracked Unit
  | .addChild name => do
      let _ ← Tracked.addChild a name 1
      return ()
  | .addWeightedChild name weight => do
      let _ ← Tracked.addChild a name weight
      return ()
  | .setPercentage value => Tracked.setPercentage a value
  | .setProgress processed total => Tracked.setProgress a processed total
  | .setMessage text => Tracked.setMessage a text
  | .start => Tracked.start a
  | .complete => Tracked.perform a .complete
  | .fault message => Tracked.perform a (.fault message)
  | .markCancelled => Tracked.perform a .markCancelled
  | .cancel => Tracked.perform a .cancel
  | .settle outcome => Tracked.settle a outcome

/-- The operation that a call attempts. -/
def op : TaskCall → TaskOp
  | .addChild name => .addChild name 1
  | .addWeightedChild name weight => .addChild name weight
  | .setPercentage value => .setPercentage value
  | .setProgress processed total => .setPercentage (Task.share processed total)
  | .setMessage text => .setMessage text
  | .start => .start
  | .complete => .complete
  | .fault message => .fault message
  | .markCancelled => .markCancelled
  | .cancel => .cancel
  | .settle outcome => Tracked.ending outcome

/-- Whether the operation went through, or else why not. -/
def verdict : Except TaskFault Tracker → Except Fault Unit
  | .ok _ => .ok ()
  | .error e => .error (.task e)

/-- What a call answers, by what came of its operation. -/
def answer : TaskCall → Except TaskFault Tracker → Except Fault Unit
  | .settle outcome, _ => outcome
  | _, result => verdict result

theorem on_perform (a : Address) (op : TaskOp) (tr : Tracker) :
    (Tracked.perform a op).on tr = (verdict (tr.perform a op), tr.attempt a op) := by
  cases hperform : tr.perform a op with
  | ok tr' =>
      rw [Tracked.on_perform_ok hperform, Tracker.attempt_of_ok hperform]
      rfl
  | error e =>
      rw [Tracked.on_perform_error hperform, Tracker.attempt_of_error hperform]
      rfl

theorem on_addChild (a : Address) (name : String) (weight : Float) (tr : Tracker) :
    (do let _ ← Tracked.addChild a name weight; return () : Tracked Unit).on tr
      = (Tracked.perform a (.addChild name weight)).on tr := by
  unfold Tracked.addChild
  rw [bind_assoc, Tracked.on_bind_eq (Tracked.on_get tr), bind_assoc]
  cases hperform : tr.perform a (.addChild name weight) with
  | ok tr' =>
      rw [Tracked.on_bind_eq (Tracked.on_perform_ok hperform), Tracked.on_perform_ok hperform]
      rfl
  | error e =>
      rw [Tracked.on_bind_error (Tracked.on_perform_error hperform),
        Tracked.on_perform_error hperform]

/-- Every call is an attempt at its operation. -/
theorem on_made (c : TaskCall) (a : Address) (tr : Tracker) :
    (c.made a).on tr = (c.answer (tr.perform a c.op), tr.attempt a c.op) := by
  cases c with
  | addChild name => exact (on_addChild a name 1 tr).trans (on_perform a _ tr)
  | addWeightedChild name weight => exact (on_addChild a name weight tr).trans (on_perform a _ tr)
  | settle outcome => rfl
  | _ => exact on_perform a _ tr

end TaskCall

/-! ## Several calls -/

namespace Tracker

/-- The tracker after several calls, each on a node of its own. -/
def after (tr : Tracker) (calls : List (Address × TaskCall)) : Tracker :=
  calls.foldl (fun tr x => ((x.2.made x.1).on tr).2) tr

/-- All that the tracker was from before the first call until after the last one. -/
def course (tr : Tracker) : List (Address × TaskCall) → List Tracker
  | [] => [tr]
  | x :: calls => tr :: course (tr.after [x]) calls

theorem after_append (tr : Tracker) (calls later : List (Address × TaskCall)) :
    tr.after (calls ++ later) = (tr.after calls).after later :=
  List.foldl_append

theorem after_concat (tr : Tracker) (calls : List (Address × TaskCall)) (x : Address × TaskCall) :
    tr.after (calls ++ [x]) = (tr.after calls).attempt x.1 x.2.op := by
  rw [after_append]
  exact congrArg Prod.snd (x.2.on_made x.1 (tr.after calls))

theorem course_concat (tr : Tracker) (calls : List (Address × TaskCall))
    (x : Address × TaskCall) :
    tr.course (calls ++ [x]) = tr.course calls ++ [tr.after (calls ++ [x])] := by
  induction calls generalizing tr with
  | nil => rfl
  | cons y calls ih =>
      rw [List.cons_append, course, ih, course]
      rfl

/-- What every attempt keeps holds after any calls. -/
theorem after_induction {P : Tracker → Prop} {tr : Tracker} (calls : List (Address × TaskCall))
    (hstart : P tr) (hstep : ∀ tr a op, P tr → P (tr.attempt a op)) : P (tr.after calls) := by
  induction calls using List.reverseRecOn with
  | nil => exact hstart
  | append_singleton calls x ih =>
      rw [after_concat]
      exact hstep _ _ _ ih

end Tracker

end Reconcile
