import Reconcile.Script.Annotation

/-!
# Runs that succeed

How a run goes through its steps, and what it answers once it succeeds.  Comparing and
scripting work under a task, which they report on and which may refuse a report or ask
them to stop.  None of that shows in an answer: `compare_ok` and `scriptComparison_ok`
say that it is the plain comparison, and the plain comparison with its scripts.
Statements about answers are therefore statements about `Comparison.between` and
`Comparison.scripted`.
-/

namespace Reconcile

/-! ## Steps of a run -/

/-- What comes first runs on the tracker as it is, what follows on what that left. -/
theorem run_bind_state {σ α β : Type} (x : StateM σ α) (f : α → StateM σ β) (tr : σ) :
    (x >>= f).run tr = (f (x.run tr).1).run (x.run tr).2 :=
  rfl

/-- What comes first answers, and the rest runs on its answer. -/
theorem run_bind_of_eq {σ α β : Type} {x : StateM σ α} {f : α → StateM σ β} {tr tr₁ : σ}
    {answer : α} (h : x.run tr = (answer, tr₁)) :
    (x >>= f).run tr = (f answer).run tr₁ := by
  rw [run_bind_state, h]

section Failing

variable {ε σ α β : Type} {x : ExceptT ε (StateM σ) α} {f : α → ExceptT ε (StateM σ) β} {s s' : σ}

theorem run_bind_cont : (x >>= f).run.run s
    = (ExceptT.bindCont f (x.run.run s).1).run (x.run.run s).2 :=
  rfl

/-- Work in two steps succeeds only if both do, the second on what the first left. -/
theorem run_bind_ok {b : β} (h : (x >>= f).run.run s = (.ok b, s')) :
    ∃ a s₁, x.run.run s = (.ok a, s₁) ∧ (f a).run.run s₁ = (.ok b, s') := by
  rw [run_bind_cont] at h
  rcases hx : x.run.run s with ⟨outcome, s₁⟩
  rw [hx] at h
  cases outcome with
  | error e => cases h
  | ok a => exact ⟨a, s₁, rfl, h⟩

/-- After work that succeeds the rest runs on its answer and on what it left. -/
theorem run_bind_eq {answer : α} (h : x.run.run s = (.ok answer, s')) :
    (x >>= f).run.run s = (f answer).run.run s' := by
  rw [run_bind_cont, h]
  rfl

end Failing

namespace Tracked

variable {α β : Type} {tr tr₁ tr' : Tracker}

theorem on_bind (x : Tracked α) (f : α → Tracked β) (tr : Tracker) :
    (x >>= f).on tr = (ExceptT.bindCont f (x.on tr).1).run (x.on tr).2 :=
  run_bind_cont

/-- Work in two steps succeeds only if both do. -/
theorem on_bind_ok {x : Tracked α} {f : α → Tracked β} {b : β}
    (h : (x >>= f).on tr = (.ok b, tr')) :
    ∃ a tr₁, x.on tr = (.ok a, tr₁) ∧ (f a).on tr₁ = (.ok b, tr') :=
  run_bind_ok h

/-- After work that succeeds the rest runs on its answer and on what it left. -/
theorem on_bind_eq {x : Tracked α} {f : α → Tracked β} {answer : α}
    (h : x.on tr = (.ok answer, tr₁)) : (x >>= f).on tr = (f answer).on tr₁ :=
  run_bind_eq h

/-- Work that fails keeps what follows from being done. -/
theorem on_bind_error {x : Tracked α} {f : α → Tracked β} {e : Fault}
    (h : x.on tr = (.error e, tr₁)) : (x >>= f).on tr = (.error e, tr₁) := by
  rw [on_bind, h]
  rfl

/-- Two pieces of work, one after the other. -/
theorem on_andThen {x : Tracked α} {y : Tracked β} {answer : α}
    {outcome : Except Fault β × Tracker} (hx : x.on tr = (.ok answer, tr₁))
    (hy : y.on tr₁ = outcome) : (x >>= fun _ => y).on tr = outcome :=
  (on_bind_eq hx).trans hy

/-- Work that cannot fail, as a part of work that can. -/
theorem on_liftM {x : StateM Tracker α} {answer : α} (h : x.run tr = (answer, tr₁)) :
    (liftM x : Tracked α).on tr = (.ok answer, tr₁) := by
  have hlifted : (liftM x : Tracked α).on tr = (.ok (x.run tr).1, (x.run tr).2) := rfl
  rw [hlifted, h]

/-- Looking at the tracker leaves it as it is. -/
theorem on_get (tr : Tracker) : (get : Tracked Tracker).on tr = (.ok tr, tr) :=
  rfl

/-- Work that succeeds needs no handler. -/
theorem on_tryCatch {x : Tracked α} {answer : α} (handler : Fault → Tracked α)
    (h : x.on tr = (.ok answer, tr₁)) : (tryCatch x handler).on tr = (.ok answer, tr₁) := by
  have hcaught : tryCatch x handler = ExceptT.tryCatch x handler := rfl
  have hrun : StateT.run x tr = (.ok answer, tr₁) := h
  unfold on
  rw [hcaught, ExceptT.tryCatch, ExceptT.run_mk, run_bind_state, hrun]
  rfl

/-- Work that fails is followed by its handler, on what it left. -/
theorem on_tryCatch_error {x : Tracked α} {e : Fault} (handler : Fault → Tracked α)
    (h : x.on tr = (.error e, tr₁)) : (tryCatch x handler).on tr = (handler e).on tr₁ := by
  have hcaught : tryCatch x handler = ExceptT.tryCatch x handler := rfl
  have hrun : StateT.run x tr = (.error e, tr₁) := h
  unfold on
  rw [hcaught, ExceptT.tryCatch, ExceptT.run_mk, run_bind_state, hrun]
  rfl

/-- Ending a task leaves the outcome of its work as it is. -/
theorem settle_outcome (task : Address) (outcome : Except Fault α) (tr : Tracker) :
    ((settle task outcome).run.run tr).1 = outcome :=
  rfl

theorem on_settling {task : Address} {work : Tracked α} {outcome : Except Fault α}
    (h : work.on tr = (outcome, tr₁)) :
    (settling task work).on tr = (outcome, tr₁.attempt task (ending outcome)) := by
  have hrun : (settling task work).on tr = (settle task (work.on tr).1).on (work.on tr).2 :=
    rfl
  rw [hrun, h]
  rfl

theorem on_settling_ok {task : Address} {work : Tracked α} {a : α}
    (h : (settling task work).on tr = (.ok a, tr')) :
    ∃ tr₁, work.on tr = (.ok a, tr₁) := by
  have houtcome : (work.on tr).1 = .ok a := congrArg Prod.fst h
  exact ⟨(work.on tr).2, by rw [← houtcome]⟩

end Tracked

/-! ## Comparing -/

/-- A comparison that is computed under a task is the comparison of the two models,
which are of one dialect. -/
theorem compare_ok {o : Options} {source target : Model} {task : Address} {polls : Polls}
    {r : Comparison} {tr tr' : Tracker}
    (h : (compare o source target task polls).on tr = (.ok r, tr')) :
    source.dialect = target.dialect ∧ r = .between o source target := by
  unfold compare at h
  split at h
  · obtain ⟨_, tr₁, -, hrest⟩ := Tracked.on_bind_ok h
    cases hrest
  · next hdialect =>
      refine ⟨Decidable.not_not.mp hdialect, ?_⟩
      obtain ⟨_, tr₁, -, hsettling⟩ := Tracked.on_bind_ok h
      obtain ⟨tr₂, hwork⟩ := Tracked.on_settling_ok hsettling
      obtain ⟨tasks, tr₃, -, hsweep⟩ := Tracked.on_bind_ok hwork
      obtain ⟨_, tr₄, -, hdone⟩ := Tracked.on_bind_ok hsweep
      cases hdone
      rfl

/-! ## Scripting -/

/-- The last steps of a run: it succeeds only if its consolidation did. -/
theorem consolidate_ok {s : Spelling} {r r' : Comparison} {task : Address}
    {consolidate : StateM Tracker (Except Fault Unit)} {tr tr' : Tracker}
    (h : (do
        let outcome ← consolidate
        let ended ← (Tracked.settle task outcome).run
        return (match outcome with
          | .ok () => r.scripted s
          | .error _ => r.annotated s, ended) :
        StateM Tracker (Comparison × Except Fault Unit)).run tr = ((r', .ok ()), tr')) :
    r' = r.scripted s := by
  rw [run_bind_state, run_bind_state, Tracked.settle_outcome] at h
  cases houtcome : (consolidate.run tr).1 with
  | error e =>
      rw [houtcome] at h
      cases h
  | ok _ =>
      rw [houtcome] at h
      exact (Prod.mk.inj (Prod.mk.inj h).1).1.symm

/-- A run that succeeds answers the comparison with all its scripts. -/
theorem scriptComparison_ok {s : Spelling} {r r' : Comparison} {task : Address}
    {polls : Polls} {tr tr' : Tracker}
    (h : (scriptComparison s r task polls).run tr = ((r', .ok ()), tr')) :
    r' = r.scripted s := by
  unfold scriptComparison at h
  rw [run_bind_state] at h
  generalize (Tracked.start task).run.run tr = started at h
  obtain ⟨started, tr₁⟩ := started
  cases started with
  | error e => cases h
  | ok _ =>
      dsimp only at h
      rw [run_bind_state] at h
      split at h
      · cases h
      · rw [run_bind_state] at h
        split at h
        · next result hreport =>
            obtain ⟨done, outcome⟩ := result
            rw [run_bind_state, run_bind_state, Tracked.settle_outcome] at h
            cases outcome with
            | error e => cases h
            | ok _ => exact consolidate_ok h
        · rw [run_bind_state, run_bind_state, Tracked.settle_outcome] at h
          cases h

end Reconcile
