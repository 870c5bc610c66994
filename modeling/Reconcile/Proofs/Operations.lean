import Reconcile.Proofs.Runs
import Reconcile.Proofs.Told
import Mathlib.Data.List.Basic

/-!
# What the operations do

One lemma for each operation on a task: when it goes through, what it comes to tell, and
that nothing else told changes.  A task passes to whatever its status allows
(`Holds.passes`) and refuses the rest (`Holds.refuses`).  Ending a task comes down to the
status and the message that an outcome calls for (`settle_writes`), and stopping several
tasks to a map over what they tell (`cancelUnfinished_told`).

Work that only reports keeps its task the same but for percentage and message
(`Tracked.ReportsOn`).
-/

namespace Reconcile

namespace TaskState

/-- The task as it is left when the work above it stops. -/
def stopped (s : TaskState) : TaskState :=
  if s.status.isFinal then s else s.passed .cancelled none false

theorem stopped_of_final {s : TaskState} (h : s.status.isFinal = true) : s.stopped = s :=
  if_pos h

theorem stopped_isFinal (s : TaskState) : s.stopped.status.isFinal = true := by
  unfold stopped
  split
  · assumption
  · rfl

theorem stopped_stopped (s : TaskState) : s.stopped.stopped = s.stopped :=
  stopped_of_final s.stopped_isFinal

/-- The same task with another percentage or message. -/
def Reports (s s' : TaskState) : Prop :=
  s' = { s with percentage := s'.percentage, message := s'.message }

namespace Reports

variable {s s₁ s₂ : TaskState}

theorem refl (s : TaskState) : s.Reports s :=
  rfl

theorem percentage (s : TaskState) (value : Float) :
    s.Reports { s with percentage := value } :=
  rfl

theorem message (s : TaskState) (text : String) : s.Reports { s with message := text } :=
  rfl

theorem trans (h : s.Reports s₁) (h' : s₁.Reports s₂) : s.Reports s₂ := by
  unfold Reports at *
  rw [h', h]

theorem status_eq (h : s.Reports s₁) : s₁.status = s.status := by
  rw [h]

theorem name_eq (h : s.Reports s₁) : s₁.name = s.name := by
  rw [h]

end Reports

end TaskState

/-! ## Passing to another status -/

namespace Tracker

variable {a : Address} {tr tr₁ : Tracker} {s : TaskState} {kids : List TaskState}

theorem attempt_of_ok {op : TaskOp} (h : tr.perform a op = .ok tr₁) : tr.attempt a op = tr₁ := by
  unfold attempt
  rw [h]

theorem attempt_of_error {op : TaskOp} {e : TaskFault} (h : tr.perform a op = .error e) :
    tr.attempt a op = tr := by
  unfold attempt
  rw [h]

/-- A task passes to whatever its status allows. -/
theorem Holds.passes (op : TaskOp) (next : Status) (message : Option String)
    (hop : ∀ now (t : Task), t.perform now op = t.transition now next message)
    (h : tr.Holds a s kids) (hallows : s.status.allows next = true) :
    ∃ tr', tr.perform a op = .ok tr' ∧ tr.Writes a (s.passed next message kids.isEmpty) tr' := by
  obtain ⟨⟨s₀, cs⟩, hnode, rfl, rfl⟩ := h
  have hallowed : s₀.status.allows next = true := hallows
  have htransition :=
    (hop tr.now (.node s₀ cs)).trans (Task.transition_eq tr.now next message s₀ cs)
  rw [if_pos hallowed] at htransition
  obtain ⟨tr', hperform, hwrites⟩ := perform_writes hnode htransition
    (s₀.passedAt_cancelRequested tr.now next message cs.isEmpty)
  refine ⟨tr', hperform, ?_⟩
  rw [TaskState.told_passedAt] at hwrites
  simpa [Task.children, Task.state] using hwrites

/-- What its status does not allow is refused. -/
theorem Holds.refuses (op : TaskOp) (next : Status) (message : Option String)
    (hop : ∀ now (t : Task), t.perform now op = t.transition now next message)
    (h : tr.Holds a s kids) (hallows : s.status.allows next = false) :
    tr.perform a op = .error (.transition s.name s.status next) := by
  obtain ⟨⟨s₀, cs⟩, hnode, rfl, rfl⟩ := h
  have hallowed : ¬ s₀.status.allows next = true := by
    rw [Bool.not_eq_true]
    exact hallows
  have htransition :=
    (hop tr.now (.node s₀ cs)).trans (Task.transition_eq tr.now next message s₀ cs)
  rw [if_neg hallowed] at htransition
  rw [perform_of_at? hnode, htransition]
  rfl

/-- Faulting is nothing to a task that has ended. -/
theorem Holds.attempt_fault_of_final (message : String) (h : tr.Holds a s kids)
    (hfinal : s.status.isFinal = true) : tr.attempt a (.fault message) = tr := by
  have hallows : s.status.allows .faulted = false := by
    revert hfinal
    cases s.status <;> decide
  exact attempt_of_error
    (h.refuses (.fault message) .faulted (some message) (fun _ _ => rfl) hallows)

/-- A task that has not ended can be faulted. -/
theorem Holds.attempt_fault_of_open (message : String) (h : tr.Holds a s kids)
    (hopen : s.status.isFinal = false) :
    tr.Writes a (s.passed .faulted (some message) kids.isEmpty)
      (tr.attempt a (.fault message)) := by
  have hallows : s.status.allows .faulted = true := by
    revert hopen
    cases s.status <;> decide
  obtain ⟨tr', hperform, hwrites⟩ :=
    h.passes (.fault message) .faulted (some message) (fun _ _ => rfl) hallows
  rw [attempt_of_ok hperform]
  exact hwrites

/-- Requesting cancellation of a node is no news to anyone who reads the records. -/
theorem put_heeded_recorded {cs : List Task} {s : TaskState} (hnode : tr.at? a = some (.node s cs)) :
    (tr.put a (.node { s with cancelRequested := true } cs) []).recorded = tr.recorded := by
  have hself : tr.recorded a = some (TaskState.recorded { s with cancelRequested := true }) :=
    recorded_of_at? hnode
  have hput : (tr.put a (.node { s with cancelRequested := true } cs) []).recorded = _ :=
    Task.seen_replaceAt TaskState.recorded hnode
  rw [hput, ← hself]
  exact Function.update_eq_self a tr.recorded

/-- Requesting cancellation changes nothing that is recorded. -/
theorem attempt_cancel_recorded (a : Address) (tr : Tracker) :
    (tr.attempt a .cancel).recorded = tr.recorded := by
  cases hnode : tr.at? a with
  | none => rw [attempt_of_ok (perform_of_none hnode)]
  | some t =>
      obtain ⟨s, cs⟩ := t
      rw [attempt_of_ok (perform_of_at? hnode)]
      exact put_heeded_recorded hnode

/-- Once cancellation was requested of the root, it was requested of the whole tree. -/
theorem cancelledAt_attempt_cancel (tr : Tracker) :
    (tr.attempt [] .cancel).cancelledAt [] = true := by
  obtain ⟨⟨s, cs⟩, log, clock⟩ := tr
  rfl

end Tracker

namespace Tracked

variable {α : Type} {a : Address} {tr tr₁ : Tracker} {s : TaskState}
  {kids : List TaskState}

theorem on_perform_ok {op : TaskOp} (h : tr.perform a op = .ok tr₁) :
    (perform a op).on tr = (.ok (), tr₁) := by
  unfold perform
  rw [on_bind_eq (on_get tr)]
  simp only [h]
  rfl

theorem on_perform_error {op : TaskOp} {e : TaskFault} (h : tr.perform a op = .error e) :
    (perform a op).on tr = (.error (.task e), tr) := by
  unfold perform
  rw [on_bind_eq (on_get tr)]
  simp only [h]
  rfl

/-- A task that was created can be started. -/
theorem start_ok (h : tr.Holds a s kids) (hcreated : s.status = .created) :
    ∃ tr', (start a).on tr = (.ok (), tr') ∧ tr.Writes a s.begun tr' := by
  have hallows : s.status.allows .running = true := by
    rw [hcreated]
    rfl
  obtain ⟨tr', hperform, hwrites⟩ :=
    h.passes .start .running none (fun _ _ => rfl) hallows
  exact ⟨tr', on_perform_ok hperform, hwrites⟩

/-- A task that was started before is not started again. -/
theorem start_refused (h : tr.Holds a s kids) (hused : s.status ≠ .created) :
    (start a).on tr = (.error (.task (.transition s.name s.status .running)), tr) := by
  have hallows : s.status.allows .running = false := by
    revert hused
    cases s.status <;> decide
  exact on_perform_error (h.refuses .start .running none (fun _ _ => rfl) hallows)

/-! ## Reports and new subtasks -/

/-- A task without subtasks that has not ended takes any percentage. -/
theorem setPercentage_ok (value : Float) (h : tr.Holds a s [])
    (hopen : s.status.isFinal = false) :
    ∃ tr', (setPercentage a value).on tr = (.ok (), tr')
      ∧ tr.Writes a { s with percentage := Task.clamped value } tr' := by
  obtain ⟨⟨s₀, cs⟩, hnode, rfl, hkids⟩ := h
  have hnone : cs = [] := List.map_eq_nil_iff.mp hkids
  subst hnone
  have hstatus : s₀.status.isFinal = false := hopen
  have hop : (Task.node s₀ []).perform tr.now (.setPercentage value)
      = .ok (.node { s₀ with percentage := Task.clamped value } [],
          [.progress (Task.clamped value)]) := by
    simp [Task.perform, hstatus]
  obtain ⟨tr', hperform, hwrites⟩ := Tracker.perform_writes hnode hop rfl
  exact ⟨tr', on_perform_ok hperform, hwrites⟩

/-- A task that has not ended takes any message. -/
theorem setMessage_ok (text : String) (h : tr.Holds a s kids)
    (hopen : s.status.isFinal = false) :
    ∃ tr', (setMessage a text).on tr = (.ok (), tr')
      ∧ tr.Writes a { s with message := text } tr' := by
  obtain ⟨⟨s₀, cs⟩, hnode, rfl, -⟩ := h
  have hstatus : s₀.status.isFinal = false := hopen
  have hop : (Task.node s₀ cs).perform tr.now (.setMessage text)
      = .ok (.node { s₀ with message := text } cs, [.message text]) := by
    simp [Task.perform, hstatus]
  obtain ⟨tr', hperform, hwrites⟩ := Tracker.perform_writes hnode hop rfl
  exact ⟨tr', on_perform_ok hperform, hwrites⟩

/-- A task that has not ended takes a new subtask behind those that it has. -/
theorem addChild_ok {weight : Float} (name : String) (h : tr.Holds a s kids)
    (hopen : s.status.isFinal = false) (hweight : 0 < weight) :
    ∃ tr', (addChild a name weight).on tr = (.ok (a ++ [kids.length]), tr')
      ∧ tr.Writes (a ++ [kids.length]) (.fresh name weight) tr' := by
  obtain ⟨⟨s₀, cs⟩, hnode, rfl, rfl⟩ := h
  have hstatus : s₀.status.isFinal = false := hopen
  let child : TaskState := .fresh name weight
  let tr' : Tracker :=
    tr.put a (.node s₀ (cs ++ [.node child []])) [.child cs.length name]
  have hperform : tr.perform a (.addChild name weight) = .ok tr' := by
    rw [Tracker.perform_of_at? hnode]
    simp [Task.perform, hstatus, hweight, tr', child, Task.fresh, TaskState.fresh]
  have hchildren : (Task.node s₀ cs).children = cs := rfl
  rw [hchildren, List.length_map]
  refine ⟨tr', ?_, Tracker.put_writes_snoc child _ hnode⟩
  unfold addChild
  rw [on_bind_eq (on_get tr)]
  simp only [hnode]
  exact on_bind_eq (on_perform_ok hperform)

/-- Work that does nothing but report on its own task, and comes out so. -/
def ReportsOn (a : Address) (s : TaskState) (work : Tracked α) (outcome : Except Fault α)
    (tr : Tracker) : Prop :=
  ∃ s' tr', work.on tr = (outcome, tr') ∧ s.Reports s' ∧ tr.Writes a s' tr'

theorem ReportsOn.andThen {work : Tracked Unit} {next : Tracked α} {outcome : Except Fault α}
    (h : ReportsOn a s work (.ok ()) tr) (hholds : tr.Holds a s [])
    (hnext : ∀ s' tr', s.Reports s' → tr'.Holds a s' [] → ReportsOn a s' next outcome tr') :
    ReportsOn a s (do work; next) outcome tr := by
  obtain ⟨s₁, tr₁, hwork, hreports₁, hwrites₁⟩ := h
  obtain ⟨s₂, tr₂, hrest, hreports₂, hwrites₂⟩ :=
    hnext s₁ tr₁ hreports₁ (hholds.writes_self hwrites₁)
  exact ⟨s₂, tr₂, on_andThen hwork hrest, hreports₁.trans hreports₂, hwrites₁.trans hwrites₂⟩

theorem reportsOn_nothing (outcome : Except Fault α) (h : tr.Holds a s []) :
    ReportsOn a s (ExceptT.mk (pure outcome)) outcome tr :=
  ⟨s, tr, rfl, .refl s, .refl_of_told h.told_self⟩

theorem reportsOn_setPercentage (value : Float) (h : tr.Holds a s [])
    (hrunning : s.status = .running) : ReportsOn a s (setPercentage a value) (.ok ()) tr := by
  obtain ⟨tr', hrun, hwrites⟩ := setPercentage_ok value h (by rw [hrunning]; rfl)
  exact ⟨_, tr', hrun, .percentage s _, hwrites⟩

theorem reportsOn_setMessage (text : String) (h : tr.Holds a s [])
    (hrunning : s.status = .running) : ReportsOn a s (setMessage a text) (.ok ()) tr := by
  obtain ⟨tr', hrun, hwrites⟩ := setMessage_ok text h (by rw [hrunning]; rfl)
  exact ⟨_, tr', hrun, .message s _, hwrites⟩

/-! ## Ending a task -/

/-- The status that a task ends with when its work came out so. -/
def endStatus : Except Fault α → Status
  | .ok _ => .completed
  | .error .cancelled => .cancelled
  | .error _ => .faulted

/-- The message that a task ends with when its work came out so, if it gets one. -/
def endMessage : Except Fault α → Option String
  | .ok _ => none
  | .error .cancelled => none
  | .error e => some e.message

theorem perform_ending (outcome : Except Fault α) (now : Time) (t : Task) :
    t.perform now (ending outcome)
      = t.transition now (endStatus outcome) (endMessage outcome) := by
  cases outcome with
  | ok x => rfl
  | error e => cases e <;> rfl

theorem endStatus_isFinal (outcome : Except Fault α) : (endStatus outcome).isFinal = true := by
  cases outcome with
  | ok x => rfl
  | error e => cases e <;> rfl

theorem endStatus_eq_completed {outcome : Except Fault α} :
    endStatus outcome = .completed ↔ ∃ x, outcome = .ok x := by
  rcases outcome with e | x
  · cases e <;> simp [endStatus]
  · simp [endStatus]

theorem endStatus_eq_cancelled {outcome : Except Fault α} :
    endStatus outcome = .cancelled ↔ outcome = .error .cancelled := by
  rcases outcome with e | x
  · cases e <;> simp [endStatus]
  · simp [endStatus]

/-- A failure that is no cancellation faults the task with its text. -/
theorem end_of_error {e : Fault} (h : e ≠ .cancelled) :
    endStatus (.error e : Except Fault α) = .faulted
      ∧ endMessage (.error e : Except Fault α) = some e.message := by
  cases e with
  | cancelled => exact absurd rfl h
  | _ => exact ⟨rfl, rfl⟩

theorem running_allows_endStatus (outcome : Except Fault α) :
    Status.running.allows (endStatus outcome) = true := by
  cases outcome with
  | ok x => rfl
  | error e => cases e <;> rfl

/-- A running task ends as its work came out. -/
theorem settle_writes (outcome : Except Fault α) (h : tr.Holds a s kids)
    (hrunning : s.status = .running) :
    tr.Writes a (s.passed (endStatus outcome) (endMessage outcome) kids.isEmpty)
      (tr.attempt a (ending outcome)) := by
  have hallows : s.status.allows (endStatus outcome) = true := by
    rw [hrunning]
    exact running_allows_endStatus outcome
  obtain ⟨tr', hperform, hwrites⟩ := h.passes _ _ _ (perform_ending outcome) hallows
  rw [Tracker.attempt_of_ok hperform]
  exact hwrites

/-! ## Stopping what is unfinished -/

/-- What is done to one task of several that are stopped. -/
def stop (a : Address) : Tracked Unit := do
  match (← get).at? a with
  | some t => if t.status.isFinal then pure () else attempt a .markCancelled
  | none => pure ()

theorem cancelUnfinished_cons (a : Address) (rest : List Address) :
    cancelUnfinished (a :: rest) = (stop a >>= fun _ => cancelUnfinished rest) :=
  rfl

/-- Stopping a task that has not ended cancels it, any other is left as it is. -/
theorem stop_told (a : Address) (tr : Tracker) :
    ∃ tr', (stop a).on tr = (.ok (), tr')
      ∧ tr'.told = Function.update tr.told a ((tr.told a).map TaskState.stopped)
      ∧ (∀ b, b ≠ a → tr'.recorded b = tr.recorded b)
      ∧ tr'.cancelledAt [] = tr.cancelledAt [] := by
  unfold stop
  rw [on_bind_eq (on_get tr)]
  cases hnode : tr.at? a with
  | none =>
      refine ⟨tr, rfl, ?_, fun _ _ => rfl, rfl⟩
      have htold : tr.told a = none := Tracker.told_eq_none.mpr hnode
      rw [htold, Option.map_none, ← htold, Function.update_eq_self]
  | some t =>
      have hholds := Tracker.holds_of_at? hnode
      rw [hholds.told_self, Option.map_some]
      by_cases hfinal : t.status.isFinal = true
      · have hstays : t.state.told.stopped = t.state.told := TaskState.stopped_of_final hfinal
        simp only [hfinal, if_true]
        refine ⟨tr, rfl, ?_, fun _ _ => rfl, rfl⟩
        rw [hstays, ← hholds.told_self, Function.update_eq_self]
      · have hstopped : t.state.told.stopped = t.state.told.passed .cancelled none false :=
          if_neg hfinal
        have hallows : t.state.told.status.allows .cancelled = true := by
          change t.status.allows .cancelled = true
          revert hfinal
          cases t.status <;> decide
        obtain ⟨tr', hperform, hwrites⟩ :=
          hholds.passes .markCancelled .cancelled none (fun _ _ => rfl) hallows
        have hattempt : (attempt a .markCancelled).on tr = (.ok (), tr') :=
          congrArg (Prod.mk (Except.ok ())) (Tracker.attempt_of_ok hperform)
        simp only [hfinal]
        refine ⟨tr', hattempt, ?_, hwrites.elsewhere, hwrites.requested⟩
        rw [hwrites.told, hstopped]
        rfl

/-- What is told after several tasks were marked as cancelled unless they had ended. -/
theorem cancelUnfinished_told (tasks : List Address) (tr : Tracker) :
    ∃ tr', (cancelUnfinished tasks).on tr = (.ok (), tr')
      ∧ (∀ b, tr'.told b = if b ∈ tasks then (tr.told b).map TaskState.stopped else tr.told b)
      ∧ (∀ b, b ∉ tasks → tr'.recorded b = tr.recorded b)
      ∧ tr'.cancelledAt [] = tr.cancelledAt [] := by
  induction tasks generalizing tr with
  | nil => exact ⟨tr, rfl, fun b => rfl, fun b _ => rfl, rfl⟩
  | cons a rest ih =>
      obtain ⟨tr₁, hfirst, htold₁, hsame₁, hflag₁⟩ := stop_told a tr
      obtain ⟨tr₂, hrest, htold₂, hsame₂, hflag₂⟩ := ih tr₁
      refine ⟨tr₂, ?_, fun b => ?_, fun b hb => ?_, hflag₂.trans hflag₁⟩
      · rw [cancelUnfinished_cons]
        exact on_andThen hfirst hrest
      · rw [htold₂, htold₁]
        by_cases hb : b = a
        · subst hb
          rw [Function.update_self, if_pos List.mem_cons_self, Option.map_map]
          split
          · congr 1
            funext s
            exact s.stopped_stopped
          · rfl
        · rw [Function.update_of_ne hb]
          simp [hb]
      · rw [List.mem_cons, not_or] at hb
        rw [hsame₂ b hb.2, hsame₁ b hb.1]

end Tracked

end Reconcile
