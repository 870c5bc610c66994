import Reconcile.Proofs.Operations
import Reconcile.Task.Activity

/-!
# Activities that take turns

What an activity does depends on what others do at its pauses, and what it may rely on is
that they stay within certain bounds.  `Activity.Ensures others kept post` says of an
activity that has asked for this and that and goes on from a tracker: if others change the
tracker at pauses only as `others` allows, then each of its own steps leaves what is recorded
at the addresses in `kept`, and its outcome, all that it has asked for by then and the
tracker at the end are as `post` says.

Activities are put together with `Ensures.bind` and `Ensures.andThen`, and run with
`Ensures.run`.  Two activities that take turns come out as each of them ensures, whatever
the turns, if each keeps what the other relies on (`together_ensures`).
-/

namespace Reconcile

open Tracker (SameOn)

namespace Activity

variable {α β : Type} {others : Tracker → Tracker → Prop} {kept kept' : Address → Prop}
  {post : Except Fault α → List Inquiry → Tracker → Prop}
  {post' : Except Fault β → List Inquiry → Tracker → Prop}
  {sent sent' : List Inquiry} {tr tr' : Tracker}

/-- However others use the pauses, as far as `others` allows it, the steps of the activity
keep what is recorded at `kept`, and it ends as `post` says.  The list is what the activity
has asked for so far. -/
def Ensures (others : Tracker → Tracker → Prop) (kept : Address → Prop)
    (post : Except Fault α → List Inquiry → Tracker → Prop) :
    Activity α → List Inquiry → Tracker → Prop
  | .done outcome, sent, tr => post outcome sent tr
  | .pause next, sent, tr => ∀ tr', others tr tr' → next.Ensures others kept post sent tr'
  | .ask inquiry next, sent, tr => next.Ensures others kept post (sent ++ [inquiry]) tr
  | .step change next, sent, tr =>
      SameOn kept tr (change tr) ∧ (next tr).Ensures others kept post sent (change tr)

namespace Ensures

theorem andThen {a : Activity α} {f : Except Fault α → Activity β}
    (h : a.Ensures others kept post sent tr)
    (hf : ∀ outcome sent' tr', post outcome sent' tr' →
      (f outcome).Ensures others kept post' sent' tr') :
    (a.andThen f).Ensures others kept post' sent tr := by
  induction a generalizing sent tr with
  | done outcome => exact hf outcome sent tr h
  | pause next ih => exact fun tr' hothers => ih (h tr' hothers)
  | ask inquiry next ih => exact ih h
  | step change next ih => exact ⟨h.1, ih tr h.2⟩

/-- What follows is done only if the activity succeeds. -/
theorem bind {a : Activity α} {f : α → Activity β} (h : a.Ensures others kept post sent tr)
    (hok : ∀ x sent' tr', post (.ok x) sent' tr' → (f x).Ensures others kept post' sent' tr')
    (herror : ∀ e sent' tr', post (.error e) sent' tr' → post' (.error e) sent' tr') :
    (a >>= f).Ensures others kept post' sent tr := by
  refine h.andThen fun outcome sent' tr' hpost => ?_
  cases outcome with
  | ok x => exact hok x sent' tr' hpost
  | error e => exact herror e sent' tr' hpost

theorem mono {a : Activity α} {post₁ : Except Fault α → List Inquiry → Tracker → Prop}
    (h : a.Ensures others kept post sent tr) (hkept : ∀ b, kept' b → kept b)
    (hpost : ∀ outcome sent' tr', post outcome sent' tr' → post₁ outcome sent' tr') :
    a.Ensures others kept' post₁ sent tr := by
  induction a generalizing sent tr with
  | done outcome => exact hpost outcome sent tr h
  | pause next ih => exact fun tr' hothers => ih (h tr' hothers)
  | ask inquiry next ih => exact ih h
  | step change next ih => exact ⟨h.1.mono hkept, ih tr h.2⟩

theorem weaken {a : Activity α} {post₁ : Except Fault α → List Inquiry → Tracker → Prop}
    (h : a.Ensures others kept post sent tr)
    (hpost : ∀ outcome sent' tr', post outcome sent' tr' → post₁ outcome sent' tr') :
    a.Ensures others kept post₁ sent tr :=
  h.mono (fun _ hb => hb) hpost

/-- Work that is done as one step. -/
theorem lift {work : Tracked α} {outcome : Except Fault α} (h : work.on tr = (outcome, tr'))
    (hsame : SameOn kept tr tr') (hpost : post outcome sent tr') :
    (Activity.lift work).Ensures others kept post sent tr := by
  have hstate : (work.on tr).2 = tr' := congrArg Prod.snd h
  have houtcome : (work.on tr).1 = outcome := congrArg Prod.fst h
  refine ⟨?_, ?_⟩
  · simp only [hstate]
    exact hsame
  · simp only [hstate, houtcome]
    exact hpost

theorem lift_bind {work : Tracked α} {f : α → Activity β} {x : α}
    (h : work.on tr = (.ok x, tr')) (hsame : SameOn kept tr tr')
    (hrest : (f x).Ensures others kept post' sent tr') :
    (Activity.lift work >>= f).Ensures others kept post' sent tr := by
  have hstate : (work.on tr).2 = tr' := congrArg Prod.snd h
  have houtcome : (work.on tr).1 = .ok x := congrArg Prod.fst h
  refine ⟨?_, ?_⟩
  · simp only [hstate]
    exact hsame
  · simp only [hstate, houtcome]
    exact hrest

/-- What follows the question whether to stop depends on its answer alone. -/
theorem isCancelled_bind {f : Bool → Activity β}
    (h : (f (tr.cancelledAt [])).Ensures others kept post' sent tr) :
    (Activity.isCancelled >>= f).Ensures others kept post' sent tr :=
  ⟨SameOn.refl kept tr, h⟩

/-- What both the activity and the others keep is the same at the end as it was. -/
theorem frame {a : Activity α} (h : a.Ensures others kept post sent tr)
    (hothers : ∀ tr tr', others tr tr' → SameOn kept' tr tr') {tr₀ : Tracker}
    (hsince : SameOn (fun b => kept b ∧ kept' b) tr₀ tr) :
    a.Ensures others kept
      (fun outcome sent' tr' => post outcome sent' tr'
        ∧ SameOn (fun b => kept b ∧ kept' b) tr₀ tr') sent tr := by
  induction a generalizing sent tr with
  | done outcome => exact ⟨h, hsince⟩
  | pause next ih =>
      intro tr' htr'
      exact ih (h tr' htr') (hsince.trans ((hothers tr tr' htr').mono fun _ hb => hb.2))
  | ask inquiry next ih => exact ih h hsince
  | step change next ih =>
      exact ⟨h.1, ih tr h.2 (hsince.trans (h.1.mono fun _ hb => hb.1))⟩

/-- A task is ended as the activity came out. -/
theorem settling {a : Activity α} {task : Address}
    {post' : Except Fault α → List Inquiry → Tracker → Prop}
    (h : a.Ensures others kept post sent tr)
    (hend : ∀ outcome sent' tr', post outcome sent' tr' →
      SameOn kept tr' (tr'.attempt task (Tracked.ending outcome))
        ∧ post' outcome sent' (tr'.attempt task (Tracked.ending outcome))) :
    (Activity.settling task a).Ensures others kept post' sent tr := by
  refine h.andThen fun outcome sent' tr' hpost => ?_
  obtain ⟨hsame, hpost'⟩ := hend outcome sent' tr' hpost
  exact lift rfl hsame hpost'

/-! ## Running -/

/-- An activity that runs by itself, where others may do nothing. -/
theorem run {a : Activity α} (h : a.Ensures others kept post sent tr)
    (hrefl : ∀ tr, others tr tr) :
    SameOn kept tr (a.run.on tr).2
      ∧ post (a.run.on tr).1 (sent ++ a.asked tr) (a.run.on tr).2 := by
  induction a generalizing sent tr with
  | done outcome =>
      rw [asked, List.append_nil]
      exact ⟨SameOn.refl kept tr, h⟩
  | pause next ih => exact ih (h tr (hrefl tr))
  | ask inquiry next ih =>
      have hrest := ih h
      rw [List.append_assoc] at hrest
      exact hrest
  | step change next ih =>
      obtain ⟨hsame, hpost⟩ := ih tr h.2
      exact ⟨h.1.trans hsame, hpost⟩

end Ensures

/-- The activity can be continued after whatever others do first. -/
def Ready (others : Tracker → Tracker → Prop) (kept : Address → Prop)
    (post : Except Fault α → List Inquiry → Tracker → Prop) (a : Activity α)
    (sent : List Inquiry) (tr : Tracker) : Prop :=
  ∀ tr', others tr tr' → a.Ensures others kept post sent tr'

/-- What holds at the end of an activity is not undone by others. -/
def Stable (others : Tracker → Tracker → Prop)
    (post : Except Fault α → List Inquiry → Tracker → Prop) : Prop :=
  ∀ outcome sent tr tr', post outcome sent tr → others tr tr' → post outcome sent tr'

/-- Up to the next pause an activity keeps what it has to, and it can be continued from
there. -/
theorem Ensures.untilPause {a : Activity α} (h : a.Ensures others kept post sent tr)
    (hstable : Stable others post) :
    SameOn kept tr (a.untilPause tr).2
      ∧ ∃ sent', (a.untilPause tr).1.Ready others kept post sent' (a.untilPause tr).2 := by
  induction a generalizing sent tr with
  | done outcome =>
      exact ⟨SameOn.refl kept tr, sent,
        fun tr' hothers => hstable outcome sent tr tr' h hothers⟩
  | pause next ih => exact ⟨SameOn.refl kept tr, sent, h⟩
  | ask inquiry next ih => exact ih h
  | step change next ih =>
      obtain ⟨hsame, hready⟩ := ih tr h.2
      exact ⟨h.1.trans hsame, hready⟩

/-- A turn ends in an activity that waits or has succeeded. -/
theorem resume_ok {a a' : Activity α} (h : a.untilPause tr = (a', tr'))
    (hok : ∀ e, a' ≠ .done (.error e)) : a.resume.on tr = (.ok a', tr') := by
  change a.resume tr = _
  rcases a' with (e | x) | next | ⟨inquiry, next⟩ | ⟨change, next⟩
  · exact absurd rfl (hok e)
  · simp only [resume, h]
  · simp only [resume, h]
  · simp only [resume, h]
  · simp only [resume, h]

/-- A turn in which the activity fails. -/
theorem resume_error {a : Activity α} {e : Fault} (h : a.untilPause tr = (.done (.error e), tr')) :
    a.resume.on tr = (.error e, tr') := by
  change a.resume tr = _
  simp only [resume, h]

/-- A turn either leaves an activity that can be continued or is its failure. -/
theorem Ensures.resume {a : Activity α} (h : a.Ensures others kept post sent tr)
    (hstable : Stable others post) :
    (∃ a' sent' tr', a.resume.on tr = (.ok a', tr') ∧ SameOn kept tr tr'
        ∧ a'.Ready others kept post sent' tr')
      ∨ ∃ e tr', a.resume.on tr = (.error e, tr') ∧ SameOn kept tr tr' := by
  obtain ⟨hsame, sent', hready⟩ := h.untilPause hstable
  rcases hleft : a.untilPause tr with ⟨a', tr'⟩
  rw [hleft] at hsame hready
  by_cases hfailed : ∃ e, a' = .done (.error e)
  · obtain ⟨e, rfl⟩ := hfailed
    exact Or.inr ⟨e, tr', resume_error hleft, hsame⟩
  · exact Or.inl ⟨a', sent', tr', resume_ok hleft fun e he => hfailed ⟨e, he⟩, hsame, hready⟩

/-- Two activities that take turns, each keeping what the other relies on: when both
succeed, both ensure what they ensure, and what both keep is kept in any case. -/
theorem together_ensures {a : Activity α} {b : Activity β} (turns : List Side)
    (ha : a.Ready (SameOn kept') kept post sent tr)
    (hb : b.Ready (SameOn kept) kept' post' sent' tr)
    (hstable : Stable (SameOn kept') post) (hstable' : Stable (SameOn kept) post') :
    ∃ outcome tr', (together turns a b).on tr = (outcome, tr')
      ∧ SameOn (fun address => kept address ∧ kept' address) tr tr'
      ∧ ∀ x y, outcome = .ok (x, y) →
          (∃ sent, post (.ok x) sent tr') ∧ ∃ sent', post' (.ok y) sent' tr' := by
  have hleft : ∀ {tr tr' : Tracker}, SameOn kept tr tr' →
      SameOn (fun address => kept address ∧ kept' address) tr tr' :=
    fun hsame => hsame.mono fun _ hkept => hkept.1
  have hright : ∀ {tr tr' : Tracker}, SameOn kept' tr tr' →
      SameOn (fun address => kept address ∧ kept' address) tr tr' :=
    fun hsame => hsame.mono fun _ hkept => hkept.2
  -- At every turn either the one that goes on can be continued after it, and the other still
  -- can since nothing it relies on was touched, or the whole fails.
  induction turns generalizing a b sent sent' tr with
  | nil =>
      -- The first activity runs to its end, and then the second does.
      have hrun := (ha tr (SameOn.refl _ tr)).run (SameOn.refl kept')
      rcases hx : a.run.on tr with ⟨outcome, tr₁⟩
      rw [hx] at hrun
      cases outcome with
      | error e =>
          refine ⟨.error e, tr₁, Tracked.on_bind_error hx, hleft hrun.1, ?_⟩
          intro x y hok
          cases hok
      | ok x =>
          have hrun' := (hb tr₁ hrun.1).run (SameOn.refl kept)
          rcases hy : b.run.on tr₁ with ⟨outcome', tr₂⟩
          rw [hy] at hrun'
          have hsame := (hleft hrun.1).trans (hright hrun'.1)
          cases outcome' with
          | error e =>
              refine ⟨.error e, tr₂, ?_, hsame, ?_⟩
              · exact (Tracked.on_bind_eq hx).trans (Tracked.on_bind_error hy)
              · intro x y hok
                cases hok
          | ok y =>
              refine ⟨.ok (x, y), tr₂, ?_, hsame, ?_⟩
              · exact (Tracked.on_bind_eq hx).trans (Tracked.on_bind_eq hy)
              · intro x' y' hok
                cases hok
                exact ⟨⟨_, hstable _ _ _ _ hrun.2 hrun'.1⟩, _, hrun'.2⟩
  | cons turn turns ih =>
      cases turn with
      | source =>
          rcases (ha tr (SameOn.refl _ tr)).resume hstable with
            ⟨a', sent₁, tr₁, hturn, hsame, ha'⟩ | ⟨e, tr₁, hturn, hsame⟩
          · have hb' : b.Ready (SameOn kept) kept' post' sent' tr₁ :=
              fun tr' hothers => hb tr' (hsame.trans hothers)
            obtain ⟨outcome, tr₂, hrest, hsame', hpost⟩ := ih ha' hb'
            exact ⟨outcome, tr₂, (Tracked.on_bind_eq hturn).trans hrest,
              (hleft hsame).trans hsame', hpost⟩
          · refine ⟨.error e, tr₁, Tracked.on_bind_error hturn, hleft hsame, ?_⟩
            intro x y hok
            cases hok
      | target =>
          rcases (hb tr (SameOn.refl _ tr)).resume hstable' with
            ⟨b', sent₁, tr₁, hturn, hsame, hb'⟩ | ⟨e, tr₁, hturn, hsame⟩
          · have ha' : a.Ready (SameOn kept') kept post sent tr₁ :=
              fun tr' hothers => ha tr' (hsame.trans hothers)
            obtain ⟨outcome, tr₂, hrest, hsame', hpost⟩ := ih ha' hb'
            exact ⟨outcome, tr₂, (Tracked.on_bind_eq hturn).trans hrest,
              (hright hsame).trans hsame', hpost⟩
          · refine ⟨.error e, tr₁, Tracked.on_bind_error hturn, hright hsame, ?_⟩
            intro x y hok
            cases hok

end Activity

end Reconcile
