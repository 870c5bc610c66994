import Reconcile.Session
import Reconcile.Proofs.CrawlCourse
import Reconcile.Proofs.Finality
import Reconcile.Proofs.ScriptingCourse

/-!
# Sessions end settled

A session runs once, and when it is over every task of its tree has ended: the root as the
outcome says, and every task below it, however the two crawls took turns, wherever one of
them failed and whenever cancellation was requested.  From then on the tree refuses
everything (`Session.run_settles`).

The crawls work at the first two tasks of the session, the comparison at the third and the
scripting at the fourth, each at its own task alone.  So what is told anywhere else is the
same until the session abandons what is unfinished, and that reaches every node below the
root (`abandon_told`).
-/

namespace Reconcile

open Tracker (SameOn Bare)

/-- Neither one of the four tasks of a session nor a subtask of one. -/
def Address.Outside (b : Address) : Prop :=
  ∀ i < 4, ¬ Address.Near [i] b

/-- Of two tasks of a session, one is not below the other. -/
theorem Address.not_near_of_below {i j : Nat} {b : Address} (hij : i ≠ j) (h : [i] <+: b) :
    ¬ Address.Near [j] b := by
  intro hnear
  obtain ⟨c, rfl⟩ := h
  obtain ⟨d, hd⟩ := hnear.below
  have hsame : j = i := (List.cons.inj hd).1
  exact hij hsame.symm

namespace Tracker

variable {tr tr₁ : Tracker} {i j n : Nat}

/-- What goes on at one task of a session is not seen at another. -/
theorem Confined.below (h : Confined [i] tr tr₁) (hn : n ≠ i) : SameOn ([n] <+: ·) tr tr₁ :=
  h.mono fun _ hbelow => Address.not_near_of_below hn hbelow

theorem SameOn.below
    (h : SameOn (fun b => ¬ Address.Near [i] b ∧ ¬ Address.Near [j] b) tr tr₁) (hi : n ≠ i)
    (hj : n ≠ j) : SameOn ([n] <+: ·) tr tr₁ :=
  h.mono fun _ hbelow =>
    ⟨Address.not_near_of_below hi hbelow, Address.not_near_of_below hj hbelow⟩

end Tracker

namespace Session

variable {tr : Tracker} {s : TaskState}

/-! ## The parts of a session -/

theorem on_heeding (polls : Polls) (tr : Tracker) :
    (heeding polls).on tr = (.ok fun n => tr.cancelledAt [] || polls n, tr) :=
  rfl

/-- Comparing and scripting go on at their own tasks, and finish them if they succeed. -/
theorem compareAndScript_ends (o : Options) (a b : Model) (around : Surroundings)
    {k k' : TaskState} {i j : Nat} (hij : i ≠ j) (h : tr.Holds [i] k [])
    (h' : tr.Holds [j] k' []) (hcreated : k.status = .created)
    (hcreated' : k'.status = .created) :
    ∃ outcome tr', (compareAndScript o a b [i] [j] around).on tr = (outcome, tr')
      ∧ SameOn (fun c => ¬ Address.Near [i] c ∧ ¬ Address.Near [j] c) tr tr'
      ∧ ∀ r, outcome = .ok r → tr'.Finished [i] ∧ tr'.Finished [j] := by
  let polls : Polls := fun n => tr.cancelledAt [] || around.comparing n
  have hconfined := compare_confined o a b polls h
  rcases hcompare : (compare o a b [i] polls).on tr with ⟨outcome, tr₁⟩
  rw [hcompare] at hconfined
  unfold compareAndScript
  rw [Tracked.on_bind_eq (on_heeding around.comparing tr)]
  cases outcome with
  | error e =>
      exact ⟨.error e, tr₁, Tracked.on_bind_error hcompare,
        hconfined.mono fun _ hc => hc.1, nofun⟩
  | ok r =>
      have hfinished := compare_finishes h hcreated hcompare
      have h₁ := h'.of_below (hconfined.below hij.symm)
      rw [Tracked.on_bind_eq hcompare, Tracked.on_bind_eq (on_heeding around.scripting tr₁)]
      let spelling := Spelling.of r.dialect o
      let polls' : Polls := fun n => tr₁.cancelledAt [] || around.scripting n
      have hconfined' := scriptComparison_confined spelling r polls' h₁ hcreated'
      rcases hrun : (scriptComparison spelling r [j] polls').run tr₁ with ⟨⟨r', outcome⟩, tr₂⟩
      rw [hrun] at hconfined'
      rw [Tracked.on_bind_eq (Tracked.on_liftM hrun)]
      have hsame := (hconfined.mono fun _ (hc : _ ∧ ¬ Address.Near [j] _) => hc.1).trans
        (hconfined'.mono fun _ (hc : ¬ Address.Near [i] _ ∧ _) => hc.2)
      cases outcome with
      | error e => exact ⟨.error e, tr₂, rfl, hsame, nofun⟩
      | ok _ =>
          refine ⟨.ok r', tr₂, rfl, hsame, fun _ _ => ⟨?_, ?_⟩⟩
          · exact hfinished.of_below (hconfined'.below hij)
          · exact scriptComparison_finishes h₁ hcreated' hrun

/-- A crawl relies on what the other keeps, and finishes its task if it succeeds. -/
theorem crawl_ready (crawler : Crawler) {k : TaskState} {i j : Nat} (hij : i ≠ j)
    (h : tr.Holds [i] k []) (hcreated : k.status = .created) :
    (crawl crawler [i]).Ready (SameOn (¬ Address.Near [j] ·)) (¬ Address.Near [i] ·)
      (fun outcome _ tr' => ∀ m, outcome = .ok m → tr'.Finished [i]) [] tr := by
  intro tr' hothers
  have hspares : Spares [i] (SameOn (¬ Address.Near [j] ·)) :=
    fun _ _ hsame => Tracker.Confined.below hsame hij
  have h' := h.of_below (Tracker.Confined.below hothers hij)
  refine (crawl_ensures crawler [] hspares h' hcreated).weaken ?_
  rintro outcome _ tr'' hleaves m rfl
  exact hleaves.finished

theorem finished_stable {α : Type} {i j : Nat} (hij : i ≠ j) :
    Activity.Stable (SameOn (¬ Address.Near [j] ·))
      (fun (outcome : Except Fault α) _ tr => ∀ m, outcome = .ok m → tr.Finished [i]) :=
  fun _ _ _ _ hpost hothers m hm => (hpost m hm).of_below (Tracker.Confined.below hothers hij)

/-! ## All the work of a session -/

/-- The four tasks of a session as they are added. -/
def tasks : List TaskState :=
  [.fresh "source" 4, .fresh "target" 4, .fresh "compare" 1, .fresh "script" 2]

/-- What a session does under its four tasks. -/
def working (o : Options) (source target : Crawler) (around : Surroundings) :
    Tracked Comparison := do
  let (s, t) ← Activity.together around.turns (crawl source [0]) (crawl target [1])
  compareAndScript o s t [2] [3] around

/-- However the crawls take turns and wherever the work fails, it goes on at the four tasks
alone, and it finishes them if it succeeds. -/
theorem working_ends (o : Options) (source target : Crawler) (around : Surroundings)
    (h : tr.Holds [] s tasks) (hbare : Bare [] 0 tr) :
    ∃ outcome tr', (working o source target around).on tr = (outcome, tr')
      ∧ SameOn Address.Outside tr tr'
      ∧ ∀ r, outcome = .ok r → ∀ i < 4, tr'.Finished [i] := by
  have hleaf : ∀ {n : Nat} {k : TaskState}, tasks[n]? = some k → tr.Holds [n] k [] :=
    fun hk => h.leaf_kid hk (hbare _ (Nat.zero_le _))
  obtain ⟨outcome, tr₁, hcrawl, hsame, hfinished⟩ := Activity.together_ensures around.turns
    (crawl_ready source Nat.zero_ne_one (hleaf rfl) rfl)
    (crawl_ready target Nat.one_ne_zero (hleaf rfl) rfl)
    (finished_stable Nat.zero_ne_one) (finished_stable Nat.one_ne_zero)
  have houtside : SameOn Address.Outside tr tr₁ :=
    hsame.mono fun _ hb => ⟨hb 0 (by omega), hb 1 (by omega)⟩
  cases outcome with
  | error e => exact ⟨.error e, tr₁, Tracked.on_bind_error hcrawl, houtside, nofun⟩
  | ok models =>
      obtain ⟨a, b⟩ := models
      obtain ⟨⟨_, hsource⟩, _, htarget⟩ := hfinished a b rfl
      -- The crawls have left the other two tasks unused.
      have hunused : ∀ {n : Nat} {k : TaskState}, n ≠ 0 → n ≠ 1 → tasks[n]? = some k →
          tr₁.Holds [n] k [] :=
        fun hn hn' hk => (hleaf hk).of_below (hsame.below hn hn')
      obtain ⟨outcome, tr₂, hrest, hsame', hfinished'⟩ :=
        compareAndScript_ends o a b around (by omega : 2 ≠ 3)
          (hunused (by omega) (by omega) rfl) (hunused (by omega) (by omega) rfl) rfl rfl
      refine ⟨outcome, tr₂, (Tracked.on_bind_eq hcrawl).trans hrest, ?_, ?_⟩
      · exact houtside.trans (hsame'.mono fun _ hb => ⟨hb 2 (by omega), hb 3 (by omega)⟩)
      · rintro r rfl i hi
        obtain ⟨hcompare, hscript⟩ := hfinished' r rfl
        match i with
        | 0 => exact (hsource a rfl).of_below (hsame'.below (by omega) (by omega))
        | 1 => exact (htarget b rfl).of_below (hsame'.below (by omega) (by omega))
        | 2 => exact hcompare
        | 3 => exact hscript

/-- Abandoning a session stops every node below the root. -/
theorem abandon_told (tr : Tracker) :
    ∃ tr', abandon.on tr = (.ok (), tr') ∧ tr'.told [] = tr.told []
      ∧ ∀ b, b ≠ [] → tr'.told b = (tr.told b).map TaskState.stopped := by
  obtain ⟨tr', hrun, htold, -⟩ := Tracked.cancelUnfinished_told tr.root.descendants tr
  refine ⟨tr', hrun, ?_, fun b hb => ?_⟩
  · have hnot : [] ∉ tr.root.descendants := by
      rw [Task.mem_descendants]
      exact fun h => h.1 rfl
    rw [htold, if_neg hnot]
  · rw [htold]
    split
    · rfl
    · next hnot =>
        rw [Task.mem_descendants] at hnot
        have hnone : tr.told b = none := by
          rw [Tracker.told_eq_none, Tracker.at?, ← Option.not_isSome_iff_eq_none]
          exact fun hstands => hnot ⟨hb, hstands⟩
        rw [hnone]
        rfl

/-- The four tasks are added before any is used. -/
theorem tasks_added (h : tr.Holds [] s []) (hopen : s.status.isFinal = false) :
    ∃ tr', tr'.Holds [] s tasks ∧ Bare [] 0 tr'
      ∧ ∀ work : Address → Address → Address → Address → Tracked Comparison, (do
          let sourceTask ← Tracked.addChild [] "source" 4
          let targetTask ← Tracked.addChild [] "target" 4
          let compareTask ← Tracked.addChild [] "compare" 1
          let scriptTask ← Tracked.addChild [] "script" 2
          work sourceTask targetTask compareTask scriptTask).on tr
        = (work [0] [1] [2] [3]).on tr' := by
  have hone : (0 : Float) < 1 := by decide
  have htwo : (0 : Float) < 2 := by decide
  have hfour : (0 : Float) < 4 := by decide
  obtain ⟨tr₁, hadd₁, hwrites₁⟩ := Tracked.addChild_ok "source" h hopen hfour
  have h₁ := h.writes_new hwrites₁
  obtain ⟨tr₂, hadd₂, hwrites₂⟩ := Tracked.addChild_ok "target" h₁ hopen hfour
  have h₂ := h₁.writes_new hwrites₂
  obtain ⟨tr₃, hadd₃, hwrites₃⟩ := Tracked.addChild_ok "compare" h₂ hopen hone
  have h₃ := h₂.writes_new hwrites₃
  obtain ⟨tr₄, hadd₄, hwrites₄⟩ := Tracked.addChild_ok "script" h₃ hopen htwo
  have hconfined := hwrites₁.confined_child.trans (hwrites₂.confined_child.trans
    (hwrites₃.confined_child.trans hwrites₄.confined_child))
  refine ⟨tr₄, h₃.writes_new hwrites₄, h.bare.of_confined hconfined (le_refl _), fun work => ?_⟩
  exact (Tracked.on_bind_eq hadd₁).trans ((Tracked.on_bind_eq hadd₂).trans
    ((Tracked.on_bind_eq hadd₃).trans (Tracked.on_bind_eq hadd₄)))

/-- Outside the four tasks of a session nothing is told but of the root. -/
theorem told_outside (h : tr.Holds [] s tasks) (hbare : Bare [] 0 tr) {b : Address}
    (hb : b ≠ []) (houtside : b.Outside) : tr.told b = none := by
  match b with
  | [] => exact absurd rfl hb
  | [i] =>
      have hi : 4 ≤ i := by
        by_contra hlt
        exact houtside i (by omega) (Address.near_self [i])
      have hkid : tr.told ([] ++ [i]) = none := by
        rw [h.told_kid, List.getElem?_eq_none hi]
      exact hkid
  | i :: j :: rest => exact Tracker.told_append_of_none (hbare i (Nat.zero_le i) j) rest

/-- When the work of a session is over, every node below the root has ended, and has
completed if the work succeeded.  The root itself still runs. -/
theorem crawlAndCompare_ends (o : Options) (source target : Crawler) (around : Surroundings)
    (h : tr.Holds [] s []) (hopen : s.status.isFinal = false) :
    ∃ outcome tr', (crawlAndCompare o source target around).on tr = (outcome, tr')
      ∧ tr'.told [] = some s
      ∧ (∀ b k, b ≠ [] → tr'.told b = some k → k.status.isFinal = true)
      ∧ ∀ r, outcome = .ok r → ∀ b k, b ≠ [] → tr'.told b = some k → k.status = .completed := by
  obtain ⟨tr₁, h₁, hbare₁, hbegin⟩ := tasks_added h hopen
  obtain ⟨outcome, tr₂, hwork, hsame, hfinished⟩ :=
    working_ends o source target around h₁ hbare₁
  have hroot : tr₂.told [] = some s := by
    rw [hsame.told (a := []) fun i _ hnear => ?_, h₁.told_self]
    have hlength := hnear.below.length_le
    simp at hlength
  let handler : Fault → Tracked Comparison := fun e => do
    abandon
    throw e
  have hrun : (crawlAndCompare o source target around).on tr
      = (tryCatch (working o source target around) handler).on tr₁ :=
    hbegin fun a b c d => tryCatch (do
      let (s, t) ← Activity.together around.turns (crawl source a) (crawl target b)
      compareAndScript o s t c d around) handler
  cases outcome with
  | ok r =>
      have hcompleted : ∀ b k, b ≠ [] → tr₂.told b = some k → k.status = .completed := by
        intro b k hb hk
        by_cases houtside : Address.Outside b
        · rw [hsame.told houtside, told_outside h₁ hbare₁ hb houtside] at hk
          cases hk
        · unfold Address.Outside at houtside
          push Not at houtside
          obtain ⟨i, hi, hnear⟩ := houtside
          exact (hfinished r rfl i hi).told_near hnear hk
      refine ⟨.ok r, tr₂, hrun.trans (Tracked.on_tryCatch handler hwork), hroot, ?_,
        fun _ _ => hcompleted⟩
      intro b k hb hk
      rw [hcompleted b k hb hk]
      rfl
  | error e =>
      obtain ⟨tr₃, habandon, hroot₃, htold₃⟩ := abandon_told tr₂
      have hcaught : (handler e).on tr₂ = (.error e, tr₃) := Tracked.on_bind_eq habandon
      refine ⟨.error e, tr₃,
        hrun.trans ((Tracked.on_tryCatch_error handler hwork).trans hcaught),
        hroot₃.trans hroot, ?_, nofun⟩
      intro b k hb hk
      rw [htold₃ b hb] at hk
      obtain ⟨k', -, rfl⟩ := Option.map_eq_some_iff.mp hk
      exact k'.stopped_isFinal

/-- No session begins on a tree that has ended. -/
theorem refused_of_allFinal (o : Options) (source target : Crawler) (around : Surroundings)
    (h : tr.AllFinal) :
    ∃ e, (run o source target around).on tr = (.error (.task e), tr) := by
  have hnode : tr.at? [] = some tr.root := rfl
  have hused : tr.root.state.told.status ≠ .created := by
    intro hcreated
    have hfinal : tr.root.state.told.status.isFinal = true := h.status hnode
    rw [hcreated] at hfinal
    cases hfinal
  exact ⟨_, Tracked.on_bind_error
    (Tracked.start_refused (Tracker.holds_of_at? hnode) hused)⟩

end Session

/-! ## The end of a session -/

/-- How a session that came out so leaves its tree. -/
structure SessionEnd (outcome : Except Fault Comparison) (tr : Tracker) : Prop where
  /-- The root has ended as the outcome says. -/
  root : ∃ t, tr.at? [] = some t
    ∧ (t.status = .completed ↔ ∃ r, outcome = .ok r)
    ∧ (t.status = .cancelled ↔ outcome = .error .cancelled)
    ∧ ∀ e, outcome = .error e → e ≠ .cancelled →
        t.status = .faulted ∧ t.state.message = e.message
  /-- Every node has ended. -/
  final : ∀ a t, tr.at? a = some t → t.status.isFinal = true
  /-- After a session that succeeded every node has completed. -/
  completed : ∀ r, outcome = .ok r → ∀ a t, tr.at? a = some t → t.status = .completed
  /-- Whatever is attempted later, every operation on any node but a request to cancel is
  refused and changes nothing. -/
  refuses : ∀ later a t op, (tr.attemptAll later).at? a = some t → op ≠ .cancel →
    ∃ e, (Tracked.perform a op).on (tr.attemptAll later)
      = (.error (.task e), tr.attemptAll later)
  /-- Nor does a second session begin. -/
  once : ∀ later o source target around,
    ∃ e, (Session.run o source target around).on (tr.attemptAll later)
      = (.error (.task e), tr.attemptAll later)

/-- A session on a tree that no run has used ends settled: whatever the crawlers do, however
they take turns, and whenever cancellation is requested, before the session or in it. -/
theorem Session.run_settles (o : Options) (source target : Crawler) (around : Surroundings)
    {tr : Tracker} {s : TaskState} (hroot : tr.root = .node s []) (hcreated : s.status = .created) :
    let ended := (Session.run o source target around).on tr
    SessionEnd ended.1 ended.2 := by
  intro ended
  have h : tr.Holds [] s.told [] := ⟨.node s [], by rw [Tracker.at?, hroot]; rfl, rfl, rfl⟩
  obtain ⟨tr₁, hstart, hwrites₁⟩ := Tracked.start_ok h hcreated
  obtain ⟨outcome, tr₂, hwork, hroot₂, hfinal₂, hcompleted₂⟩ :=
    crawlAndCompare_ends o source target around (h.writes_self hwrites₁) rfl
  -- The root still runs when the work is over, and is ended last.
  obtain ⟨t₂, ht₂, hs₂⟩ := Option.map_eq_some_iff.mp hroot₂
  have hholds₂ : tr₂.Holds [] s.told.begun (t₂.children.map (·.state.told)) :=
    ⟨t₂, ht₂, hs₂, rfl⟩
  have hwrites₃ := Tracked.settle_writes outcome hholds₂ rfl
  have hended : ended = (outcome, tr₂.attempt [] (Tracked.ending outcome)) :=
    (Tracked.on_bind_eq hstart).trans (Tracked.on_settling hwork)
  rw [hended]
  have hbelow : ∀ b, b ≠ [] → (tr₂.attempt [] (Tracked.ending outcome)).told b = tr₂.told b :=
    fun b hb => hwrites₃.told_of_ne hb
  have hallFinal : (tr₂.attempt [] (Tracked.ending outcome)).AllFinal := by
    intro b k hk
    by_cases hb : b = []
    · rw [hb, hwrites₃.told_self] at hk
      cases hk
      exact Tracked.endStatus_isFinal outcome
    · rw [hbelow b hb] at hk
      exact hfinal₂ b k hb hk
  obtain ⟨t, ht, hstatus, hmessage, -⟩ := (hholds₂.writes_self hwrites₃).shows
  rw [TaskState.passed_status] at hstatus
  rw [TaskState.passed_message] at hmessage
  refine ⟨⟨t, ht, ?_, ?_, ?_⟩, fun a t hnode => hallFinal.status hnode, ?completed, ?refuses,
    ?once⟩
  · rw [hstatus]
    exact Tracked.endStatus_eq_completed
  · rw [hstatus]
    exact Tracked.endStatus_eq_cancelled
  · rintro e rfl he
    obtain ⟨hfaulted, htext⟩ := Tracked.end_of_error (α := Comparison) he
    rw [hstatus, hmessage, hfaulted, htext]
    exact ⟨rfl, rfl⟩
  case completed =>
    rintro r rfl a t hnode
    have htold := (Tracker.holds_of_at? hnode).told_self
    by_cases ha : a = []
    · rw [ha, hwrites₃.told_self] at htold
      have hself := congrArg TaskState.status (Option.some.inj htold)
      exact hself.symm
    · rw [hbelow a ha] at htold
      have hdone := hcompleted₂ r rfl a _ ha htold
      exact hdone
  case refuses =>
    intro later a t op hnode hop
    exact (hallFinal.attemptAll later).refuses hnode hop
  case once =>
    intro later o source target around
    exact Session.refused_of_allFinal o source target around (hallFinal.attemptAll later)

/-- A shop whose views cannot be read, with pauses before its tables and its views. -/
def pausingShop : Crawler :=
  Rehearsal.crawler
    { dialect := .mySql
      database := "shop"
      objects := fun
        | .table => [{ schema := "shop", name := "customers" }]
        | _ => []
      failures := [(.view, .crawl (.reported "no such view"))]
      pauseBefore := [.table, .view] }

/-- While one crawl pauses in the middle of its categories, the other sees that cancellation
is requested: the session ends cancelled and settled. -/
theorem Session.run_settles_interrupted :
    let around : Surroundings := { turns := [.source, .target, .target, .source] }
    let ended := (Session.run {} pausingShop interruptedShop around).on Session.fresh
    Session.fresh.root = .node { name := "schema compare" } []
    ∧ ({ name := "schema compare" } : TaskState).status = .created
    ∧ SessionEnd ended.1 ended.2
    ∧ ∃ t, ended.2.at? [] = some t ∧ t.status = .cancelled := by
  intro around ended
  have hroot : Session.fresh.root = .node { name := "schema compare" } [] := rfl
  have hend := Session.run_settles {} pausingShop interruptedShop around hroot rfl
  exact ⟨hroot, rfl, hend, ended.2.root, rfl, by decide +kernel⟩

end Reconcile
