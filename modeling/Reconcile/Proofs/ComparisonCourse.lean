import Reconcile.Proofs.CategoryTasks
import Reconcile.Proofs.Mirror
import Mathlib.Algebra.GroupWithZero.Nat
import Mathlib.Data.Nat.Find

/-!
# The course of a comparison

A comparison asks before every object whether it is to stop, and reports on a task and on
a subtask for each category.  `ComparisonCourse` says what comes of it for all answers:
who is refused, when there is a result, and how the task and its subtasks stand at the
end; `compare_course` proves it of `compare`.

The loops are taken from the inside out, each by two lemmas: it goes through while the
answers are no, and it stops at the first yes.  `sweep_completes` and `sweep_stops` are
about the objects of one category, `sweepCategories_completes` and
`sweepCategories_stops` about the categories, `compare_completes` and `compare_stops`
about the whole.
-/

namespace Reconcile

namespace TaskState

/-- The task once it has reported so many of `total` things. -/
def reported (total done : Nat) (s : TaskState) : TaskState :=
  if done = 0 then s else { s with percentage := Task.clamped (Task.share done total) }

@[simp] theorem reported_status (total done : Nat) (s : TaskState) :
    (s.reported total done).status = s.status := by
  unfold reported
  split <;> rfl

@[simp] theorem reported_name (total done : Nat) (s : TaskState) :
    (s.reported total done).name = s.name := by
  unfold reported
  split <;> rfl

theorem reported_succ (total done : Nat) (s : TaskState) :
    { s.reported total done with percentage := Task.clamped (Task.share (done + 1) total) }
      = s.reported total (done + 1) := by
  unfold reported
  split <;> rfl

end TaskState

namespace Category

/-- The task of a category of which so many of `total` objects were reported before it
ended. -/
def endedTask (c : Category) (total done : Nat) (status : Status) : TaskState :=
  ((TaskState.fresh c.label 1).begun.reported total done).passed status none true

@[simp] theorem endedTask_name (c : Category) (total done : Nat) (status : Status) :
    (c.endedTask total done status).name = c.label := by
  unfold endedTask TaskState.begun
  simp [TaskState.fresh]

@[simp] theorem endedTask_status (c : Category) (total done : Nat) (status : Status) :
    (c.endedTask total done status).status = status :=
  rfl

theorem endedTask_stopped (c : Category) (total done : Nat) {status : Status}
    (h : status.isFinal = true) :
    (c.endedTask total done status).stopped = c.endedTask total done status :=
  TaskState.stopped_of_final h

theorem standing_endedTasks (extent : Category → Nat) (status : Status)
    (cats : List Category) :
    (cats.map fun c => c.endedTask (extent c) (extent c) status).map
      (fun k => (k.name, k.status)) = standing status cats := by
  rw [List.map_map]
  exact List.map_congr_left fun c _ => by simp

/-- A number below the sum over all categories falls into one of them. -/
theorem exists_split_of_lt_sum {f : Category → Nat} {cats : List Category} {n : Nat}
    (h : n < (cats.map f).sum) :
    ∃ before c after done, cats = before ++ c :: after ∧ done < f c
      ∧ n = (before.map f).sum + done := by
  induction cats generalizing n with
  | nil => simp at h
  | cons c rest ih =>
      rw [List.map_cons, List.sum_cons] at h
      by_cases hn : n < f c
      · exact ⟨[], c, rest, n, rfl, hn, by simp⟩
      · obtain ⟨before, d, after, done, rfl, hdone, hsum⟩ := ih (n := n - f c) (by omega)
        refine ⟨c :: before, d, after, done, rfl, hdone, ?_⟩
        rw [List.map_cons, List.sum_cons]
        omega

end Category

/-- Unless all answers are no, one of them is the first yes. -/
theorem Polls.exists_first {polls : Polls} {total : Nat}
    (h : ¬ ∀ n < total, polls n = false) :
    ∃ n < total, polls n = true ∧ ∀ m < n, polls m = false := by
  have hyes : ∃ n, n < total ∧ polls n = true := by
    by_contra hnone
    refine h fun n hn => ?_
    rw [← Bool.not_eq_true]
    exact fun hpoll => hnone ⟨n, hn, hpoll⟩
  obtain ⟨hlt, hpoll⟩ := Nat.find_spec hyes
  refine ⟨Nat.find hyes, hlt, hpoll, fun m hm => ?_⟩
  rw [← Bool.not_eq_true]
  exact fun hpoll' => Nat.find_min hyes hm ⟨hm.trans hlt, hpoll'⟩

namespace Tracked

open Tracker (Confined SameOn Bare)

variable {a : Address} {tr : Tracker} {s : TaskState} {kids front : List TaskState}
  {polls : Polls}

/-! ## The objects of a category -/

/-- A sweep goes on while the answers are no. -/
theorem sweep_completes {total left done : Nat} (hdone : done + left = total)
    (hno : ∀ n, done ≤ n → n < total → polls n = false)
    (h : tr.Holds a (s.reported total done) []) (hrunning : s.status = .running) :
    ∃ tr', (sweep a total polls left).on tr = (.ok (), tr')
      ∧ tr.Writes a (s.reported total total) tr' := by
  induction left generalizing tr done with
  | zero =>
      obtain rfl : done = total := hdone
      exact ⟨tr, rfl, .refl_of_told h.told_self⟩
  | succ left ih =>
      have hnext : total - (left + 1) = done := by omega
      have hafter : total - left = done + 1 := by omega
      have hopen : (s.reported total done).status.isFinal = false := by
        rw [TaskState.reported_status, hrunning]
        rfl
      obtain ⟨tr₁, hreport, hwrites₁⟩ :=
        setPercentage_ok (Task.share (done + 1) total) h hopen
      rw [TaskState.reported_succ] at hwrites₁
      obtain ⟨tr₂, hrest, hwrites₂⟩ :=
        ih (by omega) (fun n hn => hno n (by omega)) (h.writes_self hwrites₁)
      refine ⟨tr₂, ?_, hwrites₁.trans hwrites₂⟩
      have hgo := on_andThen hreport hrest
      rw [sweep, hnext, hafter, hno done (le_refl done) (by omega)]
      exact hgo

/-- A sweep stops at the first yes. -/
theorem sweep_stops {total left done reached : Nat} (hdone : done + left = total)
    (hle : done ≤ reached) (hlt : reached < total)
    (hno : ∀ n, done ≤ n → n < reached → polls n = false) (hyes : polls reached = true)
    (h : tr.Holds a (s.reported total done) []) (hrunning : s.status = .running) :
    ∃ tr', (sweep a total polls left).on tr = (.error .cancelled, tr')
      ∧ tr.Writes a (s.reported total reached) tr' := by
  induction left generalizing tr done with
  | zero => omega
  | succ left ih =>
      have hnext : total - (left + 1) = done := by omega
      have hafter : total - left = done + 1 := by omega
      rw [sweep, hnext, hafter]
      rcases Nat.eq_or_lt_of_le hle with rfl | hbefore
      · refine ⟨tr, ?_, .refl_of_told h.told_self⟩
        rw [hyes]
        rfl
      · have hopen : (s.reported total done).status.isFinal = false := by
          rw [TaskState.reported_status, hrunning]
          rfl
        obtain ⟨tr₁, hreport, hwrites₁⟩ :=
          setPercentage_ok (Task.share (done + 1) total) h hopen
        rw [TaskState.reported_succ] at hwrites₁
        obtain ⟨tr₂, hrest, hwrites₂⟩ :=
          ih (by omega) (by omega) (fun n hn => hno n (by omega)) (h.writes_self hwrites₁)
        refine ⟨tr₂, ?_, hwrites₁.trans hwrites₂⟩
        have hgo := on_andThen hreport hrest
        rw [hno done (le_refl done) hbefore]
        exact hgo

/-- One category, under its own fresh task. -/
theorem category_ends {c : Category} {total done : Nat} {outcome : Except Fault Unit}
    (h : tr.Holds a (.fresh c.label 1) [])
    (hsweep : ∀ tr₁ : Tracker, tr₁.Holds a (TaskState.fresh c.label 1).begun [] →
      ∃ tr₂, (sweep a total polls total).on tr₁ = (outcome, tr₂)
        ∧ tr₁.Writes a ((TaskState.fresh c.label 1).begun.reported total done) tr₂)
    (hmessage : endMessage outcome = none) :
    ∃ tr', (do start a; settling a (sweep a total polls total) : Tracked Unit).on tr
        = (outcome, tr')
      ∧ tr.Writes a (c.endedTask total done (endStatus outcome)) tr' := by
  obtain ⟨tr₁, hstart, hwrites₁⟩ := start_ok h rfl
  have hstarted := h.writes_self hwrites₁
  obtain ⟨tr₂, hrun, hwrites₂⟩ := hsweep tr₁ hstarted
  have hswept := hstarted.writes_self hwrites₂
  have hwrites₃ := settle_writes outcome hswept (by simp)
  rw [hmessage] at hwrites₃
  refine ⟨tr₂.attempt a (ending outcome), ?_, (hwrites₁.trans hwrites₂).trans hwrites₃⟩
  rw [on_bind_eq hstart]
  exact on_settling hrun

theorem category_completes {c : Category} {total : Nat}
    (h : tr.Holds a (.fresh c.label 1) []) (hno : ∀ n < total, polls n = false) :
    ∃ tr', (do start a; settling a (sweep a total polls total) : Tracked Unit).on tr
        = (.ok (), tr')
      ∧ tr.Writes a (c.endedTask total total .completed) tr' :=
  category_ends h
    (fun _ hstarted => sweep_completes (Nat.zero_add total) (fun n _ => hno n) hstarted rfl) rfl

theorem category_stops {c : Category} {total done : Nat}
    (h : tr.Holds a (.fresh c.label 1) []) (hno : ∀ n < done, polls n = false)
    (hyes : polls done = true) (hlt : done < total) :
    ∃ tr', (do start a; settling a (sweep a total polls total) : Tracked Unit).on tr
        = (.error .cancelled, tr')
      ∧ tr.Writes a (c.endedTask total done .cancelled) tr' :=
  category_ends h
    (fun _ hstarted => sweep_stops (Nat.zero_add total) (Nat.zero_le done) hlt
      (fun n _ => hno n) hyes hstarted rfl) rfl

/-! ## The categories -/

theorem sweepCategories_cons (total : Category → Nat) (polls : Polls) (c : Category)
    (task : Address) (rest : List (Category × Address)) :
    sweepCategories total polls ((c, task) :: rest)
      = (do start task; settling task (sweep task (total c) polls (total c)))
        >>= fun _ => sweepCategories total (fun n => polls (total c + n)) rest := by
  rw [sweepCategories, bind_assoc]

/-- When the first category is not stopped, the others follow it. -/
theorem sweepCategories_next {total : Category → Nat} {c : Category} {later : List TaskState}
    (h : tr.Holds a s (front ++ .fresh c.label 1 :: later)) (hbare : Bare a front.length tr)
    (hno : ∀ n < total c, polls n = false) :
    ∃ tr', tr'.Holds a s ((front ++ [c.endedTask (total c) (total c) .completed]) ++ later)
      ∧ Confined a tr tr'
      ∧ ∀ rest, (sweepCategories total polls ((c, a ++ [front.length]) :: rest)).on tr
          = (sweepCategories total (fun n => polls (total c + n)) rest).on tr' := by
  obtain ⟨tr', hrun, hwrites⟩ := category_completes (h.leaf_child (hbare _ (le_refl _))) hno
  have hholds := h.writes_child hwrites
  rw [List.append_cons] at hholds
  refine ⟨tr', hholds, hwrites.confined_child, fun rest => ?_⟩
  rw [sweepCategories_cons]
  exact on_bind_eq hrun

/-- Categories that no answer stops, each under its own fresh task. -/
theorem sweepCategories_completes {total : Category → Nat} {cats : List Category}
    (h : tr.Holds a s (front ++ cats.map fun c => .fresh c.label 1))
    (hbare : Bare a front.length tr) (hno : ∀ n < (cats.map total).sum, polls n = false) :
    ∃ tr', (sweepCategories total polls (Category.tasksFrom a front.length cats)).on tr
        = (.ok (), tr')
      ∧ tr'.Holds a s (front ++ cats.map fun c => c.endedTask (total c) (total c) .completed)
      ∧ Confined a tr tr' := by
  induction cats generalizing tr front polls with
  | nil => exact ⟨tr, rfl, h, SameOn.refl _ tr⟩
  | cons c rest ih =>
      rw [List.map_cons, List.sum_cons] at hno
      have hfirst : ∀ n < total c, polls n = false := fun n hn => hno n (by omega)
      obtain ⟨tr₁, hholds₁, hconfined₁, hnext⟩ := sweepCategories_next h hbare hfirst
      obtain ⟨tr₂, hrest, hholds₂, hconfined₂⟩ := ih hholds₁
        (hbare.of_confined hconfined₁ (by simp)) fun n hn => hno (total c + n) (by omega)
      refine ⟨tr₂, ?_, by simpa using hholds₂, hconfined₁.trans hconfined₂⟩
      rw [List.length_append] at hrest
      rw [Category.tasksFrom, hnext]
      exact hrest

/-- Categories of which one is stopped after so many of its objects: those before it are
completed, and those after it are not begun. -/
theorem sweepCategories_stops {total : Category → Nat} {before after : List Category}
    {c : Category} {done : Nat} (hlt : done < total c)
    (h : tr.Holds a s (front ++ (before ++ c :: after).map fun c => .fresh c.label 1))
    (hbare : Bare a front.length tr)
    (hno : ∀ n < (before.map total).sum + done, polls n = false)
    (hyes : polls ((before.map total).sum + done) = true) :
    ∃ tr', (sweepCategories total polls
          (Category.tasksFrom a front.length (before ++ c :: after))).on tr
        = (.error .cancelled, tr')
      ∧ tr'.Holds a s (front ++ ((before.map fun c => c.endedTask (total c) (total c) .completed)
          ++ c.endedTask (total c) done .cancelled :: after.map fun c => .fresh c.label 1))
      ∧ Confined a tr tr' := by
  induction before generalizing tr front polls with
  | nil =>
      simp only [List.map_nil, List.sum_nil, Nat.zero_add] at hno hyes
      have hleaf := h.leaf_child (hbare _ (le_refl _))
      obtain ⟨tr₁, hrun, hwrites⟩ := category_stops hleaf hno hyes hlt
      refine ⟨tr₁, ?_, h.writes_child hwrites, hwrites.confined_child⟩
      rw [List.nil_append, Category.tasksFrom, sweepCategories_cons]
      exact on_bind_error hrun
  | cons d before ih =>
      rw [List.map_cons, List.sum_cons, Nat.add_assoc] at hno hyes
      have hfirst : ∀ n < total d, polls n = false := fun n hn => hno n (by omega)
      obtain ⟨tr₁, hholds₁, hconfined₁, hnext⟩ := sweepCategories_next h hbare hfirst
      obtain ⟨tr₂, hrest, hholds₂, hconfined₂⟩ := ih hholds₁
        (hbare.of_confined hconfined₁ (by simp))
        (fun n hn => hno (total d + n) (by omega)) hyes
      refine ⟨tr₂, ?_, by simpa using hholds₂, hconfined₁.trans hconfined₂⟩
      rw [List.length_append] at hrest
      rw [List.cons_append, Category.tasksFrom, hnext]
      exact hrest

end Tracked

/-! ## The whole comparison -/

section Comparing

open Tracker (Confined SameOn)

variable {o : Options} {source target : Model} {task : Address} {polls : Polls} {tr : Tracker}
  {s : TaskState} {kids : List TaskState}

/-- How many objects of a category a comparison goes through: one for every key that
either model has. -/
def Model.extent (source target : Model) (c : Category) : Nat :=
  ((source.objects c).unionKeys (target.objects c)).length

/-- The work of a comparison, once its task is running. -/
def comparing (o : Options) (source target : Model) (task : Address) (polls : Polls) :
    Tracked Comparison := do
  let tasks ← Tracked.addCategories task
  try Tracked.sweepCategories (source.extent target) polls tasks
  catch e =>
    Tracked.cancelUnfinished (tasks.map Prod.snd)
    throw e
  return .between o source target

theorem compare_eq (hdialect : source.dialect = target.dialect) :
    compare o source target task polls
      = (do Tracked.start task; Tracked.settling task (comparing o source target task polls)) := by
  unfold compare
  rw [if_neg (not_not.mpr hdialect)]
  rfl

/-- Models of different dialects are refused, and their task is faulted if it can be. -/
theorem compare_foreign (hdialect : source.dialect ≠ target.dialect) :
    let fault := Fault.dialects (.models source.dialect target.dialect)
    (compare o source target task polls).on tr
      = (.error fault, tr.attempt task (.fault fault.message)) := by
  intro fault
  unfold compare
  rw [if_pos hdialect]
  rfl

theorem compare_used (hdialect : source.dialect = target.dialect) (h : tr.Holds task s kids)
    (hused : s.status ≠ .created) :
    (compare o source target task polls).on tr
      = (.error (.task (.transition s.name s.status .running)), tr) := by
  rw [compare_eq hdialect]
  exact Tracked.on_bind_error (Tracked.start_refused h hused)

/-- A comparison that ends so has its task end accordingly. -/
theorem compare_ends {outcome : Except Fault Comparison} {tasks : List TaskState}
    (hdialect : source.dialect = target.dialect) (h : tr.Holds task s kids)
    (hcreated : s.status = .created)
    (hwork : ∀ tr₁ : Tracker, tr₁.Holds task s.begun kids →
      ∃ tr₂, (comparing o source target task polls).on tr₁ = (outcome, tr₂)
        ∧ tr₂.Holds task s.begun (kids ++ tasks) ∧ Confined task tr₁ tr₂)
    (hmessage : Tracked.endMessage outcome = none) (htasks : tasks ≠ []) :
    ∃ tr', (compare o source target task polls).on tr = (outcome, tr')
      ∧ tr'.Holds task (s.begun.passed (Tracked.endStatus outcome) none false) (kids ++ tasks)
      ∧ Confined task tr tr' := by
  obtain ⟨tr₁, hstart, hwrites₁⟩ := Tracked.start_ok h hcreated
  obtain ⟨tr₂, hrun, hholds₂, hconfined₂⟩ := hwork tr₁ (h.writes_self hwrites₁)
  have hwrites₃ := Tracked.settle_writes outcome hholds₂ rfl
  have hinner : (kids ++ tasks).isEmpty = false := by
    cases tasks with
    | nil => exact absurd rfl htasks
    | cons k rest => simp
  rw [hmessage, hinner] at hwrites₃
  refine ⟨tr₂.attempt task (Tracked.ending outcome), ?_, hholds₂.writes_self hwrites₃,
    (hwrites₁.confined_self.trans hconfined₂).trans hwrites₃.confined_self⟩
  rw [compare_eq hdialect, Tracked.on_bind_eq hstart]
  exact Tracked.on_settling hrun

/-- A comparison that no answer stops is the comparison of the two models, and all its
tasks are completed. -/
theorem compare_completes (o : Options) (hdialect : source.dialect = target.dialect)
    (h : tr.Holds task s kids) (hcreated : s.status = .created)
    (hno : ∀ n < (Category.all.map (source.extent target)).sum, polls n = false) :
    ∃ tr', (compare o source target task polls).on tr = (.ok (.between o source target), tr')
      ∧ tr'.Holds task (s.begun.passed .completed none false)
          (kids ++ Category.all.map fun c =>
            c.endedTask (source.extent target c) (source.extent target c) .completed)
      ∧ Confined task tr tr' := by
  refine compare_ends hdialect h hcreated (fun tr₁ h₁ => ?_) rfl (by simp [Category.all])
  obtain ⟨tr₂, hadd, hholds₂, hconfined₂, -⟩ := Tracked.addCategories_ok h₁ rfl
  have hbare := h₁.bare.of_confined hconfined₂ (le_refl _)
  obtain ⟨tr₃, hsweep, hholds₃, hconfined₃⟩ :=
    Tracked.sweepCategories_completes hholds₂ hbare hno
  refine ⟨tr₃, ?_, hholds₃, hconfined₂.trans hconfined₃⟩
  exact (Tracked.on_bind_eq hadd).trans (Tracked.on_bind_eq (Tracked.on_tryCatch _ hsweep))

/-- A comparison that is stopped before an object of one category comes to nothing: the
categories before have completed, and that one and those after it are cancelled. -/
theorem compare_stops (o : Options) {before after : List Category} {c : Category} {done : Nat}
    (hdialect : source.dialect = target.dialect) (h : tr.Holds task s kids)
    (hcreated : s.status = .created) (hall : Category.all = before ++ c :: after)
    (hlt : done < source.extent target c)
    (hno : ∀ n < (before.map (source.extent target)).sum + done, polls n = false)
    (hyes : polls ((before.map (source.extent target)).sum + done) = true) :
    ∃ tr', (compare o source target task polls).on tr = (.error .cancelled, tr')
      ∧ tr'.Holds task (s.begun.passed .cancelled none false)
          (kids ++ ((before.map fun c =>
              c.endedTask (source.extent target c) (source.extent target c) .completed)
            ++ c.endedTask (source.extent target c) done .cancelled
            :: after.map fun c => (TaskState.fresh c.label 1).stopped))
      ∧ Confined task tr tr' := by
  refine compare_ends hdialect h hcreated (fun tr₁ h₁ => ?_) rfl (by simp)
  obtain ⟨tr₂, hadd, hholds₂, hconfined₂, -⟩ := Tracked.addCategories_ok h₁ rfl
  have hbare := h₁.bare.of_confined hconfined₂ (le_refl _)
  rw [hall] at hadd hholds₂
  obtain ⟨tr₃, hsweep, hholds₃, hconfined₃⟩ :=
    Tracked.sweepCategories_stops hlt hholds₂ hbare hno hyes
  obtain ⟨tr₄, hstop, hholds₄, hconfined₄, -⟩ :=
    Tracked.cancelUnfinished_siblings (before ++ c :: after) hholds₃ (by simp)
  refine ⟨tr₄, ?_, ?_, (hconfined₂.trans hconfined₃).trans hconfined₄⟩
  · let handler : Fault → Tracked Unit := fun e => do
      Tracked.cancelUnfinished
        ((Category.tasksFrom task kids.length (before ++ c :: after)).map Prod.snd)
      throw e
    have hthrow : (handler .cancelled).on tr₃ = (.error .cancelled, tr₄) :=
      Tracked.on_bind_eq hstop
    have hcaught := (Tracked.on_tryCatch_error handler hsweep).trans hthrow
    exact (Tracked.on_bind_eq hadd).trans (Tracked.on_bind_error hcaught)
  · -- Of the tasks that are stopped, those that have ended stay as they are.
    have hkept : (before.map fun d => d.endedTask (source.extent target d)
        (source.extent target d) .completed).map TaskState.stopped
        = before.map fun d => d.endedTask (source.extent target d)
          (source.extent target d) .completed := by
      rw [List.map_map]
      exact List.map_congr_left fun d _ => d.endedTask_stopped _ _ rfl
    rw [List.map_append, List.map_cons, hkept, c.endedTask_stopped _ _ rfl,
      List.map_map] at hholds₄
    exact hholds₄

/-- Under a task that was created, either no answer is yes, or the first yes is given
before some object of one category. -/
theorem compare_cases (source target : Model) (polls : Polls) :
    (∀ n < (Category.all.map (source.extent target)).sum, polls n = false)
    ∨ ∃ before c after done, Category.all = before ++ c :: after
      ∧ done < source.extent target c
      ∧ (∀ n < (before.map (source.extent target)).sum + done, polls n = false)
      ∧ polls ((before.map (source.extent target)).sum + done) = true := by
  by_cases hno : ∀ n < (Category.all.map (source.extent target)).sum, polls n = false
  · exact Or.inl hno
  · obtain ⟨n, hlt, hyes, hbefore⟩ := Polls.exists_first hno
    obtain ⟨before, c, after, done, hall, hdone, rfl⟩ := Category.exists_split_of_lt_sum hlt
    exact Or.inr ⟨before, c, after, done, hall, hdone, hbefore, hyes⟩

/-- A comparison touches its task and the subtasks that it adds. -/
theorem compare_confined (o : Options) (source target : Model) (polls : Polls)
    (h : tr.Holds task s kids) :
    Confined task tr ((compare o source target task polls).on tr).2 := by
  by_cases hdialect : source.dialect = target.dialect
  · by_cases hcreated : s.status = .created
    · rcases compare_cases source target polls with
        hno | ⟨before, c, after, done, hall, hdone, hbefore, hyes⟩
      · obtain ⟨tr', hrun, -, hconfined⟩ := compare_completes o hdialect h hcreated hno
        rw [hrun]
        exact hconfined
      · obtain ⟨tr', hrun, -, hconfined⟩ :=
          compare_stops o hdialect h hcreated hall hdone hbefore hyes
        rw [hrun]
        exact hconfined
    · rw [compare_used hdialect h hcreated]
      exact SameOn.refl _ tr
  · rw [compare_foreign hdialect]
    cases hfinal : s.status.isFinal with
    | true =>
        rw [h.attempt_fault_of_final _ hfinal]
        exact SameOn.refl _ tr
    | false => exact (h.attempt_fault_of_open _ hfinal).confined_self

/-- There is a result just when no answer is yes. -/
theorem compare_answers_iff (o : Options) (hdialect : source.dialect = target.dialect)
    (h : tr.Holds task s kids) (hcreated : s.status = .created) :
    (∃ r, ((compare o source target task polls).on tr).1 = .ok r)
      ↔ ∀ n < (Category.all.map (source.extent target)).sum, polls n = false := by
  constructor
  · rintro ⟨r, hr⟩
    rcases compare_cases source target polls with
      hno | ⟨before, c, after, done, hall, hdone, hbefore, hyes⟩
    · exact hno
    · obtain ⟨tr', hrun, -, -⟩ :=
        compare_stops o hdialect h hcreated hall hdone hbefore hyes
      rw [hrun] at hr
      cases hr
  · intro hno
    obtain ⟨tr', hrun, -, -⟩ := compare_completes o hdialect h hcreated hno
    exact ⟨_, congrArg Prod.fst hrun⟩

/-- A comparison that answers under a task without subtasks leaves it finished. -/
theorem compare_finishes {r : Comparison} {tr' : Tracker} (h : tr.Holds task s [])
    (hcreated : s.status = .created)
    (hrun : (compare o source target task polls).on tr = (.ok r, tr')) : tr'.Finished task := by
  have hdialect := (compare_ok hrun).1
  have hno := (compare_answers_iff o hdialect h hcreated).mp ⟨r, congrArg Prod.fst hrun⟩
  obtain ⟨tr'', hrun', hholds, -⟩ := compare_completes o hdialect h hcreated hno
  obtain rfl : tr'' = tr' := congrArg Prod.snd (hrun'.symm.trans hrun)
  refine ⟨_, _, hholds, rfl, fun k hk => ?_⟩
  obtain ⟨c, -, rfl⟩ := List.mem_map.mp hk
  rfl

end Comparing

/-- How a comparison of two models comes out under a task where the node `t` stands. -/
structure ComparisonCourse (o : Options) (source target : Model) (task : Address)
    (polls : Polls) (t : Task) (tr : Tracker) (outcome : Except Fault Comparison)
    (tr' : Tracker) : Prop where
  /-- Models of different dialects are refused.  The task faults for it unless it has
  ended, and gets no subtask. -/
  foreign : source.dialect ≠ target.dialect →
    let fault := Fault.dialects (.models source.dialect target.dialect)
    outcome = .error fault
    ∧ (t.status.isFinal = true → tr' = tr)
    ∧ (t.status.isFinal = false → ∃ t', tr'.at? task = some t' ∧ t'.status = .faulted
        ∧ t'.state.message = fault.message ∧ t'.standing = t.standing)
  /-- A task that has been used is refused and left as it is. -/
  used : source.dialect = target.dialect → t.status ≠ .created →
    (∃ e, outcome = .error (.task e)) ∧ tr' = tr
  /-- There is a result unless one of the answers was yes; one answer is given for every
  key of either model. -/
  answered : source.dialect = target.dialect → t.status = .created →
    ((∃ r, outcome = .ok r)
      ↔ ∀ n < (Category.all.map (source.extent target)).sum, polls n = false)
  /-- With the result all tasks are completed. -/
  completed : source.dialect = target.dialect → t.status = .created →
    ∀ r, outcome = .ok r → r = .between o source target
      ∧ ∃ t', tr'.at? task = some t' ∧ t'.status = .completed
        ∧ t'.standing = t.standing ++ Category.standing .completed Category.all
  /-- The first yes, given before the object number `done` of category `c`, leaves the
  categories before it completed, and it and those after it cancelled.  By then just the
  objects before that one were reported. -/
  stopped : source.dialect = target.dialect → t.status = .created →
    ∀ before c after done, Category.all = before ++ c :: after →
      done < source.extent target c →
      (∀ n < (before.map (source.extent target)).sum + done, polls n = false) →
      polls ((before.map (source.extent target)).sum + done) = true →
      outcome = .error .cancelled
      ∧ ∃ t', tr'.at? task = some t' ∧ t'.status = .cancelled
        ∧ t'.standing = t.standing ++ Category.standing .completed before
            ++ Category.standing .cancelled (c :: after)
        ∧ tr'.told (task ++ [t.children.length + before.length])
            = some (c.endedTask (source.extent target c) done .cancelled)
  /-- Nothing else in the tree is touched. -/
  beyond : Tracker.Confined task tr tr'

/-- Comparing two models under a task takes the course that `ComparisonCourse` describes,
whatever the answers are. -/
theorem compare_course (o : Options) (source target : Model) (polls : Polls) {task : Address}
    {tr : Tracker} {t : Task} (hnode : tr.at? task = some t) :
    let ended := (compare o source target task polls).on tr
    ComparisonCourse o source target task polls t tr ended.1 ended.2 := by
  intro ended
  have h := Tracker.holds_of_at? hnode
  refine ⟨?foreign, ?used, ?answered, ?completed, ?stopped, compare_confined o _ _ polls h⟩
  case foreign =>
    intro hdialect fault
    have hended : ended = (.error fault, tr.attempt task (.fault fault.message)) :=
      compare_foreign hdialect
    rw [hended]
    refine ⟨rfl, h.attempt_fault_of_final fault.message, fun hopen => ?_⟩
    obtain ⟨t', ht', hstatus, hmessage, hstanding⟩ :=
      (h.writes_self (h.attempt_fault_of_open fault.message hopen)).shows
    rw [TaskState.passed_message] at hmessage
    exact ⟨t', ht', hstatus, hmessage, hstanding.trans (standing_told t)⟩
  case used =>
    intro hdialect hused
    have hended : ended = _ := compare_used hdialect h hused
    rw [hended]
    exact ⟨⟨_, rfl⟩, rfl⟩
  case answered =>
    intro hdialect hcreated
    exact compare_answers_iff o hdialect h hcreated
  case completed =>
    intro hdialect hcreated r hr
    have hno := (compare_answers_iff o hdialect h hcreated).mp ⟨r, hr⟩
    obtain ⟨tr', hrun, hholds, -⟩ := compare_completes o hdialect h hcreated hno
    have hended : ended = (.ok (.between o source target), tr') := hrun
    rw [hended] at hr ⊢
    cases hr
    obtain ⟨t', ht', hstatus, -, hstanding⟩ := hholds.shows
    refine ⟨rfl, t', ht', hstatus, ?_⟩
    rw [hstanding, List.map_append, standing_told, Category.standing_endedTasks]
  case stopped =>
    intro hdialect hcreated before c after done hall hdone hbefore hyes
    obtain ⟨tr', hrun, hholds, -⟩ :=
      compare_stops o hdialect h hcreated hall hdone hbefore hyes
    have hended : ended = (.error .cancelled, tr') := hrun
    rw [hended]
    obtain ⟨t', ht', hstatus, -, hstanding⟩ := hholds.shows
    refine ⟨rfl, t', ht', hstatus, ?_, ?_⟩
    · rw [hstanding, List.map_append, standing_told, List.map_append, List.map_cons,
        Category.standing_endedTasks, Category.standing_stopped, List.append_assoc]
      simp [Category.standing]
    · rw [hholds.told_kid]
      simp

/-- Told to stop before the second of its tables, the comparison of the two shops leaves
the tables and all later categories cancelled. -/
theorem compare_course_shop :
    let polls : Polls := fun n => n == 1
    let ended := (compare {} Comparison.shop Comparison.anonymousShop [] polls).on
      (.new "compare")
    (Tracker.new "compare").at? [] = some (.fresh "compare" 1)
    ∧ ComparisonCourse {} Comparison.shop Comparison.anonymousShop [] polls
        (.fresh "compare" 1) (.new "compare") ended.1 ended.2
    ∧ ended.1 = .error .cancelled
    ∧ ∃ t, ended.2.at? [] = some t ∧ t.status = .cancelled
      ∧ t.standing = [("sequences", .completed), ("tables", .cancelled),
          ("views", .cancelled), ("functions", .cancelled), ("procedures", .cancelled)] := by
  intro polls ended
  have hnode : (Tracker.new "compare").at? [] = some (.fresh "compare" 1) := rfl
  have hcourse := compare_course {} Comparison.shop Comparison.anonymousShop polls hnode
  obtain ⟨houtcome, t, ht, hstatus, hstanding, -⟩ := hcourse.stopped rfl rfl
    [.sequence] .table [.view, .function, .procedure] 1 rfl (by decide) (by decide) (by decide)
  exact ⟨hnode, hcourse, houtcome, t, ht, hstatus, hstanding⟩

end Reconcile
