import Reconcile.Proofs.ScriptingCourse
import Mathlib.Data.List.Nodup

/-!
# Runs that go through

Comparing and scripting report on a task, so they may be refused by the task and they may
be told to stop.  Nothing else keeps them from their result.  Under a task that was
created and never used, and not told to stop, the comparison of two models of one dialect
answers `Comparison.between` (`compare_undisturbed`), and scripting answers
`Comparison.scripted` (`scriptComparison_undisturbed`).
-/

namespace Reconcile

/-! ## The comparison -/

/-- A task stands there that was created and has not been started. -/
def Tracker.Unused (tr : Tracker) (task : Address) : Prop :=
  ∃ t, tr.at? task = some t ∧ t.status = .created

/-- Nothing but its task and the request to stop keeps the comparison of two models of
one dialect from its result. -/
theorem compare_undisturbed (o : Options) {source target : Model} {task : Address}
    {polls : Polls} {tr : Tracker} (hdialect : source.dialect = target.dialect)
    (hunused : tr.Unused task) (hpolls : ∀ n, polls n = false) :
    ∃ tr', (compare o source target task polls).on tr
      = (.ok (.between o source target), tr') := by
  obtain ⟨t, hnode, hcreated⟩ := hunused
  obtain ⟨tr', hrun, -⟩ := compare_completes o hdialect (Tracker.holds_of_at? hnode)
    hcreated fun n _ => hpolls n
  exact ⟨tr', hrun⟩

/-- Comparing two models comes to `r`: undisturbed it answers `r`, and whenever it
succeeds it answers nothing else. -/
structure ComparesTo (o : Options) (source target : Model) (r : Comparison) : Prop where
  answers : ∀ task polls tr, Tracker.Unused tr task → (∀ n, polls n = false) →
    ∃ tr', (compare o source target task polls).on tr = (.ok r, tr')
  only : ∀ task polls tr r' tr',
    (compare o source target task polls).on tr = (.ok r', tr') → r' = r

theorem comparesTo_between (o : Options) {source target : Model}
    (hdialect : source.dialect = target.dialect) :
    ComparesTo o source target (.between o source target) := by
  constructor
  · intro task polls tr hunused hpolls
    exact compare_undisturbed o hdialect hunused hpolls
  · intro task polls tr r' tr' hrun
    exact (compare_ok hrun).2

/-! ## The scripts -/

/-- Nothing but its task and the request to stop keeps scripting from its result. -/
theorem scriptComparison_undisturbed (s : Spelling) (r : Comparison) {task : Address}
    {polls : Polls} {tr : Tracker} (hunused : tr.Unused task)
    (hpolls : ∀ n, polls n = false) :
    ∃ tr', (scriptComparison s r task polls).run tr = ((r.scripted s, .ok ()), tr') := by
  obtain ⟨t, hnode, hcreated⟩ := hunused
  have hends := scriptComparison_consolidates s r (Tracker.holds_of_at? hnode) hcreated
    fun m _ => hpolls m
  rw [hpolls r.size] at hends
  obtain ⟨tr', -, -, -, hrun, -⟩ := hends
  exact ⟨tr', hrun⟩

/-- Scripting `r` comes to `r'`: undisturbed it answers `r'`, and whenever it succeeds it
answers nothing else. -/
structure ScriptsTo (s : Spelling) (r r' : Comparison) : Prop where
  answers : ∀ task polls tr, Tracker.Unused tr task → (∀ n, polls n = false) →
    ∃ tr', (scriptComparison s r task polls).run tr = ((r', .ok ()), tr')
  only : ∀ task polls tr r'' tr',
    (scriptComparison s r task polls).run tr = ((r'', .ok ()), tr') → r'' = r'

theorem scriptsTo_scripted (s : Spelling) (r : Comparison) :
    ScriptsTo s r (r.scripted s) := by
  constructor
  · intro task polls tr hunused hpolls
    exact scriptComparison_undisturbed s r hunused hpolls
  · intro task polls tr r'' tr' hrun
    exact scriptComparison_ok hrun

end Reconcile
