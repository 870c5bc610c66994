import Reconcile.Proofs.Annotating
import Reconcile.Proofs.ComparisonCourse

/-!
# The course of scripting

Scripting asks before every item and once before the consolidated scripts whether it is to
stop.  `ScriptingCourse` says what comes of it for all answers: which items are scripted,
what becomes of the consolidated scripts, and how the task and its two subtasks stand at
the end; `scriptComparison_course` proves it of `scriptComparison`.

Reporting the items and consolidating only ever report on their own subtask
(`reportItems_completes`, `reportItems_stops`, `reportsOn_consolidating`), so the two
subtasks are followed one at a time (`TwoLeaves`).
-/

namespace Reconcile

namespace Tracked

variable {a : Address} {tr : Tracker} {s : TaskState} {polls : Polls}

/-! ## Reporting the items -/

/-- An item is complained of, if there is a complaint. -/
def complain (a : Address) : Option String → Tracked Unit
  | some text => setMessage a text
  | none => pure ()

theorem reportsOn_complain (complaint : Option String) (h : tr.Holds a s [])
    (hrunning : s.status = .running) : ReportsOn a s (complain a complaint) (.ok ()) tr := by
  cases complaint with
  | none => exact reportsOn_nothing (.ok ()) h
  | some text => exact reportsOn_setMessage text h hrunning

theorem reportItems_cons (a : Address) (total : Nat) (polls : Polls) (done : Nat)
    (complaint : Option String) (rest : List (Option String)) :
    reportItems a total polls done (complaint :: rest)
      = (if polls done then pure (done, .error .cancelled) else (do
          complain a complaint
          setProgress a (done + 1) total
          reportItems a total polls (done + 1) rest)) := by
  rw [reportItems]
  cases complaint with
  | none => rfl
  | some text => rfl

/-- Items are reported to the last one while the answers are no. -/
theorem reportItems_completes (total : Nat) (complaints : List (Option String)) (done : Nat)
    (h : tr.Holds a s []) (hrunning : s.status = .running)
    (hno : ∀ n, done ≤ n → n < done + complaints.length → polls n = false) :
    ReportsOn a s (reportItems a total polls done complaints)
      (.ok (done + complaints.length, .ok ())) tr := by
  induction complaints generalizing tr s done with
  | nil => exact reportsOn_nothing _ h
  | cons complaint rest ih =>
      rw [List.length_cons] at hno ⊢
      rw [reportItems_cons, hno done (le_refl done) (by omega)]
      refine (reportsOn_complain complaint h hrunning).andThen h fun s₁ tr₁ hs₁ h₁ => ?_
      have hrunning₁ := hs₁.status_eq.trans hrunning
      refine (reportsOn_setPercentage _ h₁ hrunning₁).andThen h₁ fun s₂ tr₂ hs₂ h₂ => ?_
      have hrest := ih (done + 1) h₂ (hs₂.status_eq.trans hrunning₁)
        fun n hn hlt => hno n (by omega) (by omega)
      rw [Nat.add_right_comm] at hrest
      exact hrest

/-- Reporting stops at the first yes. -/
theorem reportItems_stops (total : Nat) (complaints : List (Option String)) (done : Nat)
    {reached : Nat} (h : tr.Holds a s []) (hrunning : s.status = .running)
    (hle : done ≤ reached) (hlt : reached < done + complaints.length)
    (hno : ∀ n, done ≤ n → n < reached → polls n = false) (hyes : polls reached = true) :
    ReportsOn a s (reportItems a total polls done complaints)
      (.ok (reached, .error .cancelled)) tr := by
  induction complaints generalizing tr s done with
  | nil =>
      rw [List.length_nil] at hlt
      omega
  | cons complaint rest ih =>
      rw [List.length_cons] at hlt
      rw [reportItems_cons]
      rcases Nat.eq_or_lt_of_le hle with rfl | hbefore
      · rw [hyes]
        exact reportsOn_nothing _ h
      · rw [hno done (le_refl done) hbefore]
        refine (reportsOn_complain complaint h hrunning).andThen h fun s₁ tr₁ hs₁ h₁ => ?_
        have hrunning₁ := hs₁.status_eq.trans hrunning
        refine (reportsOn_setPercentage _ h₁ hrunning₁).andThen h₁ fun s₂ tr₂ hs₂ h₂ => ?_
        exact ih (done + 1) h₂ (hs₂.status_eq.trans hrunning₁) (by omega) (by omega)
          fun n hn => hno n (by omega)

/-! ## Consolidating -/

theorem reportsOn_skipped (skipped : List Skipped) (h : tr.Holds a s [])
    (hrunning : s.status = .running) : ReportsOn a s (reportSkipped a skipped) (.ok ()) tr := by
  induction skipped generalizing tr s with
  | nil => exact reportsOn_nothing (.ok ()) h
  | cons one rest ih =>
      exact (reportsOn_setMessage _ h hrunning).andThen h fun s₁ tr₁ hs₁ h₁ =>
        ih h₁ (hs₁.status_eq.trans hrunning)

/-- What is done for the consolidated scripts, under a task that is running. -/
def consolidating (a : Address) (stop : Bool) (forward backward : List Skipped) :
    Tracked Unit := do
  if stop then throw .cancelled
  reportSkipped a forward
  setPercentage a 50
  reportSkipped a backward

theorem reportsOn_consolidating (forward backward : List Skipped) (h : tr.Holds a s [])
    (hrunning : s.status = .running) (stop : Bool) :
    ReportsOn a s (consolidating a stop forward backward)
      (if stop then .error .cancelled else .ok ()) tr := by
  cases stop with
  | true => exact reportsOn_nothing (.error .cancelled) h
  | false =>
      refine (reportsOn_skipped forward h hrunning).andThen h fun s₁ tr₁ hs₁ h₁ => ?_
      have hrunning₁ := hs₁.status_eq.trans hrunning
      refine (reportsOn_setPercentage 50 h₁ hrunning₁).andThen h₁ fun s₂ tr₂ hs₂ h₂ => ?_
      exact reportsOn_skipped backward h₂ (hs₂.status_eq.trans hrunning₁)

end Tracked

namespace Comparison

/-- How far a comparison is scripted when the consolidated scripts come out so. -/
def scriptedAs (s : Spelling) (r : Comparison) : Except Fault Unit → Comparison
  | .ok () => r.scripted s
  | .error _ => r.annotated s

theorem sameBare_scriptedAs (s : Spelling) (r : Comparison) (outcome : Except Fault Unit) :
    SameBare r (r.scriptedAs s outcome) := by
  cases outcome with
  | ok _ => exact sameBare_scripted s r
  | error e => exact sameBare_annotateFirst s r.size r

theorem length_complaints (s : Spelling) (r : Comparison) :
    (r.complaints s).length = r.size := by
  simp [complaints, size, Category.all]

end Comparison

section Scripting

open Tracker (Confined Bare)

variable {s : Spelling} {r r' : Comparison} {task items full : Address} {polls : Polls}
  {tr tr₁ tr₂ tr₃ tr₄ : Tracker} {state i f : TaskState} {kids : List TaskState}

/-! ## The parts of a run -/

/-- The subtasks are added before either is used, and the first is started. -/
def opening (task : Address) : Tracked (Address × Address) := do
  let items ← Tracked.addChild task "items" 3
  let full ← Tracked.addChild task "full scripts" 1
  Tracked.start items
  return (items, full)

/-- The last part of scripting, under the task of the consolidated scripts. -/
def consolidation (s : Spelling) (r : Comparison) (full : Address) (stop : Bool) :
    Tracked Unit := do
  Tracked.start full
  Tracked.settling full
    (Tracked.consolidating full stop ((r.annotated s).skipped s .sourceToTarget)
      ((r.halfScripted s).skipped s .targetToSource))

/-- A run that is stopped while it reports the items. -/
theorem scriptComparison_of_stopped {done : Nat}
    (hstart : (Tracked.start task).on tr = (.ok (), tr₁))
    (hopening : (opening task).on tr₁ = (.ok (items, full), tr₂))
    (hreport : (Tracked.reportItems items r.size polls 0 (r.complaints s)).on tr₂
      = (.ok (done, .error .cancelled), tr₃)) :
    (scriptComparison s r task polls).run tr
      = ((r.annotateFirst s done, .error .cancelled),
          ((tr₃.attempt items .markCancelled).attempt full .markCancelled).attempt task
            .markCancelled) := by
  have hreported : (pure (done, .error .cancelled) :
      StateM Tracker (Nat × Except Fault Unit)).run tr₃ = ((done, .error .cancelled), tr₃) := rfl
  unfold scriptComparison
  refine (run_bind_of_eq hstart).trans ?_
  refine (run_bind_of_eq hopening).trans ?_
  refine (run_bind_of_eq hreport).trans ?_
  refine (run_bind_of_eq hreported).trans ?_
  rfl

/-- A run that comes to the consolidated scripts. -/
theorem scriptComparison_of_reported {done : Nat} {outcome : Except Fault Unit}
    (hstart : (Tracked.start task).on tr = (.ok (), tr₁))
    (hopening : (opening task).on tr₁ = (.ok (items, full), tr₂))
    (hreport : (Tracked.reportItems items r.size polls 0 (r.complaints s)).on tr₂
      = (.ok (done, .ok ()), tr₃))
    (hconsolidation : (consolidation s r full (polls r.size)).on (tr₃.attempt items .complete)
      = (outcome, tr₄)) :
    (scriptComparison s r task polls).run tr
      = ((r.scriptedAs s outcome, outcome), tr₄.attempt task (Tracked.ending outcome)) := by
  have hreported : (pure (done, .ok ()) :
      StateM Tracker (Nat × Except Fault Unit)).run tr₃ = ((done, .ok ()), tr₃) := rfl
  have hended : ((Tracked.settle items (.ok ())).run : StateM Tracker (Except Fault Unit)).run tr₃
      = (.ok (), tr₃.attempt items .complete) := rfl
  unfold scriptComparison
  refine (run_bind_of_eq hstart).trans ?_
  refine (run_bind_of_eq hopening).trans ?_
  refine (run_bind_of_eq hreport).trans ?_
  refine (run_bind_of_eq hreported).trans ?_
  refine (run_bind_of_eq hended).trans ?_
  refine (run_bind_of_eq hconsolidation).trans ?_
  cases outcome with
  | ok _ => rfl
  | error e => rfl

/-! ## The two subtasks -/

/-- Two subtasks behind the others, with nothing below them. -/
structure TwoLeaves (tr : Tracker) (task : Address) (state : TaskState)
    (kids : List TaskState) (i f : TaskState) : Prop where
  holds : tr.Holds task state (kids ++ [i, f])
  bare : Bare task kids.length tr

namespace TwoLeaves

theorem first (h : TwoLeaves tr task state kids i f) : tr.Holds (task ++ [kids.length]) i [] :=
  h.holds.leaf_child (h.bare _ (le_refl _))

theorem second (h : TwoLeaves tr task state kids i f) :
    tr.Holds (task ++ [kids.length + 1]) f [] := by
  have hholds := h.holds
  rw [List.append_cons] at hholds
  have hleaf := hholds.leaf_child fun m => by
    rw [List.length_append]
    exact h.bare _ (Nat.le_succ _) m
  rw [List.length_append] at hleaf
  exact hleaf

theorem writes_first {i' : TaskState} (h : TwoLeaves tr task state kids i f)
    (hw : tr.Writes (task ++ [kids.length]) i' tr₁) : TwoLeaves tr₁ task state kids i' f :=
  ⟨h.holds.writes_child hw, h.bare.of_confined hw.confined_child (le_refl _)⟩

theorem writes_second {f' : TaskState} (h : TwoLeaves tr task state kids i f)
    (hw : tr.Writes (task ++ [kids.length + 1]) f' tr₁) : TwoLeaves tr₁ task state kids i f' := by
  refine ⟨?_, h.bare.of_confined hw.confined_child (le_refl _)⟩
  have hholds := h.holds
  rw [List.append_cons] at hholds
  have hlength : kids.length + 1 = (kids ++ [i]).length := by simp
  rw [hlength] at hw
  have hwritten := hholds.writes_child hw
  rwa [List.append_assoc] at hwritten

end TwoLeaves

theorem opening_ok (h : tr.Holds task state kids) (hopen : state.status.isFinal = false) :
    ∃ tr', (opening task).on tr
        = (.ok (task ++ [kids.length], task ++ [kids.length + 1]), tr')
      ∧ tr'.Holds task state
          (kids ++ [(TaskState.fresh "items" 3).begun, .fresh "full scripts" 1])
      ∧ Confined task tr tr' := by
  have hthree : (0 : Float) < 3 := by decide
  have hone : (0 : Float) < 1 := by decide
  obtain ⟨tr₁, hitems, hwrites₁⟩ := Tracked.addChild_ok "items" h hopen hthree
  have h₁ := h.writes_new hwrites₁
  obtain ⟨tr₂, hfull, hwrites₂⟩ := Tracked.addChild_ok "full scripts" h₁ hopen hone
  have h₂ := h₁.writes_new hwrites₂
  rw [List.length_append] at hfull hwrites₂
  rw [List.append_assoc] at h₂
  have hconfined := hwrites₁.confined_child.trans hwrites₂.confined_child
  -- The first subtask is a leaf, since nothing stands below a place that was free.
  have hleaf := h₂.leaf_child (h.bare.of_confined hconfined (le_refl _) _ (le_refl _))
  obtain ⟨tr₃, hstart, hwrites₃⟩ := Tracked.start_ok hleaf rfl
  refine ⟨tr₃, ?_, h₂.writes_child hwrites₃, hconfined.trans hwrites₃.confined_child⟩
  exact (Tracked.on_bind_eq hitems).trans
    ((Tracked.on_bind_eq hfull).trans (Tracked.on_bind_eq hstart))

/-- Scripting begins with its two subtasks, of which the first is running. -/
theorem scripting_begins (h : tr.Holds task state kids) (hcreated : state.status = .created) :
    ∃ tr₁ tr₂, (Tracked.start task).on tr = (.ok (), tr₁)
      ∧ (opening task).on tr₁ = (.ok (task ++ [kids.length], task ++ [kids.length + 1]), tr₂)
      ∧ TwoLeaves tr₂ task state.begun kids (TaskState.fresh "items" 3).begun
          (.fresh "full scripts" 1)
      ∧ Confined task tr tr₂ := by
  obtain ⟨tr₁, hstart, hwrites₁⟩ := Tracked.start_ok h hcreated
  have h₁ := h.writes_self hwrites₁
  obtain ⟨tr₂, hopening, hholds₂, hconfined₂⟩ := opening_ok h₁ rfl
  exact ⟨tr₁, tr₂, hstart, hopening, ⟨hholds₂, h₁.bare.of_confined hconfined₂ (le_refl _)⟩,
    hwrites₁.confined_self.trans hconfined₂⟩

/-! ## The whole run -/

/-- What a run leaves: the comparison, the outcome, and the statuses of its task and of the
two subtasks. -/
def ScriptingEnds (s : Spelling) (r : Comparison) (task : Address) (polls : Polls)
    (kids : List TaskState) (tr : Tracker) (r' : Comparison) (outcome : Except Fault Unit)
    (items full : Status) : Prop :=
  ∃ tr' state' i f, (scriptComparison s r task polls).run tr = ((r', outcome), tr')
    ∧ tr'.Holds task state' (kids ++ [i, f])
    ∧ state'.status = Tracked.endStatus outcome
    ∧ (i.name, i.status) = ("items", items) ∧ (f.name, f.status) = ("full scripts", full)
    ∧ Confined task tr tr'

/-- A run that is told to stop before one of the items. -/
theorem scriptComparison_stops (s : Spelling) (r : Comparison) {n : Nat}
    (h : tr.Holds task state kids) (hcreated : state.status = .created) (hlt : n < r.size)
    (hno : ∀ m < n, polls m = false) (hyes : polls n = true) :
    ScriptingEnds s r task polls kids tr (r.annotateFirst s n) (.error .cancelled)
      .cancelled .cancelled := by
  obtain ⟨tr₁, tr₂, hstart, hopening, h₂, hconfined₂⟩ := scripting_begins h hcreated
  have hlength : n < 0 + (r.complaints s).length := by
    rw [Comparison.length_complaints]
    omega
  obtain ⟨i, tr₃, hreport, hreports, hwrites₃⟩ := Tracked.reportItems_stops r.size
    (r.complaints s) 0 h₂.first rfl (Nat.zero_le n) hlength (fun m _ => hno m) hyes
  have h₃ := h₂.writes_first hwrites₃
  have hwrites₄ := Tracked.settle_writes (.error .cancelled : Except Fault Unit) h₃.first
    hreports.status_eq
  have h₄ := h₃.writes_first hwrites₄
  -- The second subtask was never started, and is cancelled as it is.
  obtain ⟨tr₅, hcancel, hwrites₅⟩ := h₄.second.passes .markCancelled .cancelled none
    (fun _ _ => rfl) rfl
  have h₅ := h₄.writes_second hwrites₅
  have hwrites₆ := Tracked.settle_writes (.error .cancelled : Except Fault Unit) h₅.holds rfl
  have hrun := scriptComparison_of_stopped hstart hopening hreport
  refine ⟨_, _, _, _, ?_, h₅.holds.writes_self hwrites₆, rfl, ?_, rfl, ?_⟩
  · rw [hrun, ← Tracker.attempt_of_ok hcancel]
    rfl
  · rw [hreports]
    rfl
  · exact hconfined₂.trans (hwrites₃.confined_child.trans (hwrites₄.confined_child.trans
      (hwrites₅.confined_child.trans hwrites₆.confined_self)))

/-- A run that comes to the consolidated scripts, which are written unless it is told to
stop just before them. -/
theorem scriptComparison_consolidates (s : Spelling) (r : Comparison)
    (h : tr.Holds task state kids) (hcreated : state.status = .created)
    (hno : ∀ m < r.size, polls m = false) :
    let outcome : Except Fault Unit := if polls r.size then .error .cancelled else .ok ()
    ScriptingEnds s r task polls kids tr (r.scriptedAs s outcome) outcome
      .completed (Tracked.endStatus outcome) := by
  intro outcome
  obtain ⟨tr₁, tr₂, hstart, hopening, h₂, hconfined₂⟩ := scripting_begins h hcreated
  obtain ⟨i, tr₃, hreport, hreports, hwrites₃⟩ := Tracked.reportItems_completes r.size
    (r.complaints s) 0 h₂.first rfl
    (fun m _ hm => hno m (by rw [Comparison.length_complaints] at hm; omega))
  have h₃ := h₂.writes_first hwrites₃
  have hwrites₄ := Tracked.settle_writes (.ok () : Except Fault Unit) h₃.first
    hreports.status_eq
  have h₄ := h₃.writes_first hwrites₄
  -- From here on only the second subtask is worked at.
  obtain ⟨tr₅, hbegin, hwrites₅⟩ := Tracked.start_ok h₄.second rfl
  have h₅ := h₄.writes_second hwrites₅
  obtain ⟨f, tr₆, hwork, hreports₆, hwrites₆⟩ := Tracked.reportsOn_consolidating
    ((r.annotated s).skipped s .sourceToTarget) ((r.halfScripted s).skipped s .targetToSource)
    h₅.second rfl (polls r.size)
  have h₆ := h₅.writes_second hwrites₆
  have hwrites₇ := Tracked.settle_writes outcome h₆.second hreports₆.status_eq
  have h₇ := h₆.writes_second hwrites₇
  have hconsolidation : (consolidation s r (task ++ [kids.length + 1]) (polls r.size)).on
      (tr₃.attempt (task ++ [kids.length]) .complete)
      = (outcome, tr₆.attempt (task ++ [kids.length + 1]) (Tracked.ending outcome)) :=
    (Tracked.on_bind_eq hbegin).trans (Tracked.on_settling hwork)
  have hwrites₈ := Tracked.settle_writes outcome h₇.holds rfl
  refine ⟨_, _, _, _, scriptComparison_of_reported hstart hopening hreport hconsolidation,
    h₇.holds.writes_self hwrites₈, rfl, ?_, ?_, ?_⟩
  · rw [hreports]
    rfl
  · rw [TaskState.passed_name, hreports₆.name_eq]
    rfl
  · exact hconfined₂.trans (hwrites₃.confined_child.trans (hwrites₄.confined_child.trans
      (hwrites₅.confined_child.trans (hwrites₆.confined_child.trans
        (hwrites₇.confined_child.trans hwrites₈.confined_self)))))

/-- Whatever the answers are, a run ends somehow: before an item, or at the consolidated
scripts. -/
theorem scriptComparison_ends (s : Spelling) (r : Comparison) (polls : Polls)
    (h : tr.Holds task state kids) (hcreated : state.status = .created) :
    ∃ r' outcome items full, ScriptingEnds s r task polls kids tr r' outcome items full
      ∧ Comparison.SameBare r r' := by
  by_cases hno : ∀ n < r.size, polls n = false
  · exact ⟨_, _, _, _, scriptComparison_consolidates s r h hcreated hno,
      r.sameBare_scriptedAs s _⟩
  · obtain ⟨n, hlt, hyes, hbefore⟩ := Polls.exists_first hno
    exact ⟨_, _, _, _, scriptComparison_stops s r h hcreated hlt hbefore hyes,
      Comparison.sameBare_annotateFirst s n r⟩

/-- Scripting touches its task and the subtasks that it adds. -/
theorem scriptComparison_confined (s : Spelling) (r : Comparison) (polls : Polls)
    (h : tr.Holds task state kids) (hcreated : state.status = .created) :
    Confined task tr ((scriptComparison s r task polls).run tr).2 := by
  obtain ⟨r', outcome, items, full, ⟨tr', _, _, _, hrun, _, _, _, _, hconfined⟩, -⟩ :=
    scriptComparison_ends s r polls h hcreated
  rw [hrun]
  exact hconfined

/-- Scripting that succeeds under a task without subtasks leaves it finished. -/
theorem scriptComparison_finishes {tr' : Tracker} (h : tr.Holds task state [])
    (hcreated : state.status = .created)
    (hrun : (scriptComparison s r task polls).run tr = ((r', .ok ()), tr')) :
    tr'.Finished task := by
  by_cases hno : ∀ n < r.size, polls n = false
  · have hends := scriptComparison_consolidates s r h hcreated hno
    cases hlast : polls r.size with
    | true =>
        rw [hlast] at hends
        obtain ⟨tr'', -, -, -, hrun', -⟩ := hends
        cases hrun'.symm.trans hrun
    | false =>
        rw [hlast] at hends
        obtain ⟨tr'', state', i, f, hrun', hholds, hstatus, hitems, hfull, -⟩ := hends
        obtain rfl : tr'' = tr' := congrArg Prod.snd (hrun'.symm.trans hrun)
        refine ⟨state', _, hholds, hstatus, ?_⟩
        simpa using ⟨congrArg Prod.snd hitems, congrArg Prod.snd hfull⟩
  · obtain ⟨n, hlt, hyes, hbefore⟩ := Polls.exists_first hno
    obtain ⟨tr'', -, -, -, hrun', -⟩ := scriptComparison_stops s r h hcreated hlt hbefore hyes
    cases hrun'.symm.trans hrun

theorem ScriptingEnds.shows {t : Task} {outcome : Except Fault Unit} {items full : Status}
    (h : ScriptingEnds s r task polls (t.children.map (·.state.told)) tr r' outcome items full) :
    ∃ tr' t', (scriptComparison s r task polls).run tr = ((r', outcome), tr')
      ∧ tr'.at? task = some t' ∧ t'.status = Tracked.endStatus outcome
      ∧ t'.standing = t.standing ++ [("items", items), ("full scripts", full)] := by
  obtain ⟨tr', state', i, f, hrun, hholds, hstatus, hitems, hfull, -⟩ := h
  obtain ⟨t', ht', hstatus', -, hstanding⟩ := hholds.shows
  refine ⟨tr', t', hrun, ht', hstatus'.trans hstatus, ?_⟩
  rw [hstanding, List.map_append, standing_told, List.map_cons, List.map_cons, hitems, hfull]
  rfl

end Scripting

/-- How scripting a comparison comes out under a fresh task where the node `t` stands. -/
structure ScriptingCourse (s : Spelling) (r : Comparison) (task : Address) (polls : Polls)
    (t : Task) (tr : Tracker) (r' : Comparison) (outcome : Except Fault Unit) (tr' : Tracker) :
    Prop where
  /-- A first yes before the item number `n`: the items before it are scripted, it and the
  later ones are as they were, and so are the consolidated scripts. -/
  stopped : ∀ n < r.size, (∀ m < n, polls m = false) → polls n = true →
    outcome = .error .cancelled
    ∧ r'.inOrder = (r.inOrder.take n).map (Comparison.onItem fun _ => Item.annotated s)
        ++ r.inOrder.drop n
    ∧ r'.forward = r.forward ∧ r'.backward = r.backward
    ∧ ∃ t', tr'.at? task = some t' ∧ t'.status = .cancelled
      ∧ t'.standing = t.standing ++ [("items", .cancelled), ("full scripts", .cancelled)]
  /-- A first yes after the last item: all of them are scripted, and the consolidated scripts
  are as they were. -/
  stoppedLate : (∀ m < r.size, polls m = false) → polls r.size = true →
    outcome = .error .cancelled
    ∧ r'.inOrder = r.inOrder.map (Comparison.onItem fun _ => Item.annotated s)
    ∧ r'.forward = r.forward ∧ r'.backward = r.backward
    ∧ ∃ t', tr'.at? task = some t' ∧ t'.status = .cancelled
      ∧ t'.standing = t.standing ++ [("items", .completed), ("full scripts", .cancelled)]
  /-- No yes: all is scripted, and the consolidated scripts are those of the comparison, as
  it was and as it is. -/
  completed : (∀ m ≤ r.size, polls m = false) →
    outcome = .ok ()
    ∧ r'.inOrder = r.inOrder.map (Comparison.onItem fun _ => Item.scripted s)
    ∧ (∀ d, r'.script d = some (r.consolidated s d) ∧ r'.consolidated s d = r.consolidated s d)
    ∧ ∃ t', tr'.at? task = some t' ∧ t'.status = .completed
      ∧ t'.standing = t.standing ++ [("items", .completed), ("full scripts", .completed)]
  /-- Nothing but scripts and their faults is changed in the comparison. -/
  kept : Comparison.SameBare r r'
  /-- Nothing else in the tree is touched. -/
  beyond : Tracker.Confined task tr tr'

/-- Scripting a comparison under a fresh task takes the course that `ScriptingCourse`
describes, whatever the answers are. -/
theorem scriptComparison_course (s : Spelling) (r : Comparison) (polls : Polls)
    {task : Address} {tr : Tracker} {t : Task} (hnode : tr.at? task = some t)
    (hcreated : t.status = .created) :
    let ended := (scriptComparison s r task polls).run tr
    ScriptingCourse s r task polls t tr ended.1.1 ended.1.2 ended.2 := by
  intro ended
  have h := Tracker.holds_of_at? hnode
  refine ⟨?stopped, ?stoppedLate, ?completed, ?kept,
    scriptComparison_confined s r polls h hcreated⟩
  case stopped =>
    intro n hlt hno hyes
    obtain ⟨tr', t', hrun, ht', hstatus, hstanding⟩ :=
      (scriptComparison_stops s r h hcreated hlt hno hyes).shows
    have hended : ended = _ := hrun
    rw [hended]
    exact ⟨rfl, Comparison.inOrder_annotateFirst s n r, rfl, rfl, t', ht', hstatus, hstanding⟩
  case stoppedLate =>
    intro hno hyes
    have hends := scriptComparison_consolidates s r h hcreated hno
    rw [hyes] at hends
    obtain ⟨tr', t', hrun, ht', hstatus, hstanding⟩ := hends.shows
    have hended : ended = _ := hrun
    rw [hended]
    refine ⟨rfl, ?_, rfl, rfl, t', ht', hstatus, hstanding⟩
    have hall := Comparison.inOrder_annotateFirst s r.size r
    rwa [Comparison.mapFirst_of_length_le _ (le_of_eq r.length_inOrder)] at hall
  case completed =>
    intro hno
    have hends := scriptComparison_consolidates s r h hcreated
      fun m hm => hno m (le_of_lt hm)
    rw [hno r.size (le_refl _)] at hends
    obtain ⟨tr', t', hrun, ht', hstatus, hstanding⟩ := hends.shows
    have hended : ended = _ := hrun
    rw [hended]
    refine ⟨rfl, Comparison.inOrder_scripted s r, fun d => ⟨?_, ?_⟩, t', ht', hstatus,
      hstanding⟩
    · exact Comparison.script_scripted s d r
    · exact (Comparison.sameBare_scripted s r).consolidated_eq
  case kept =>
    obtain ⟨r', outcome, items, full, hends, hkept⟩ := scriptComparison_ends s r polls h hcreated
    obtain ⟨tr', t', hrun, -⟩ := hends.shows
    have hended : ended = _ := hrun
    rw [hended]
    exact hkept

/-- Told to stop before the second item, scripting the comparison of the two shops leaves
all but the first item as they were, in whatever spelling. -/
theorem scriptComparison_course_shop :
    let r := Comparison.between {} Comparison.shop Comparison.anonymousShop
    let polls : Polls := fun n => n == 1
    (Tracker.new "script").at? [] = some (.fresh "script" 1)
    ∧ (Task.fresh "script" 1).status = .created
    ∧ ∀ s : Spelling, let ended := (scriptComparison s r [] polls).run (.new "script")
      ScriptingCourse s r [] polls (.fresh "script" 1) (.new "script") ended.1.1 ended.1.2
        ended.2
      ∧ ended.1.2 = .error .cancelled
      ∧ ended.1.1.inOrder.drop 1 = r.inOrder.drop 1 := by
  intro r polls
  have hnode : (Tracker.new "script").at? [] = some (.fresh "script" 1) := rfl
  have hsize : 1 < r.size := by decide
  refine ⟨hnode, rfl, ?_⟩
  intro s
  have hcourse := scriptComparison_course s r polls hnode rfl
  -- The rest follows from the course, without running anything.
  generalize (scriptComparison s r [] polls).run (.new "script") = ended at hcourse ⊢
  obtain ⟨houtcome, hitems, -⟩ := hcourse.stopped 1 hsize (by decide) (by decide)
  refine ⟨hcourse, houtcome, ?_⟩
  have hfirst : ((r.inOrder.take 1).map
      (Comparison.onItem fun _ => Item.annotated s)).length = 1 := by
    rw [List.length_map, List.length_take, Comparison.length_inOrder]
    omega
  rw [hitems, List.drop_left' hfirst]

end Reconcile
