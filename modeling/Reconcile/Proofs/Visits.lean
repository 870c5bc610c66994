import Reconcile.Crawl.Crawler
import Reconcile.Proofs.CategoryTasks
import Reconcile.Proofs.Turns
import Mathlib.Data.List.Forall2

/-!
# The visits of a crawl

A crawl visits the categories one after another.  A visit is a category together with the
outcome of its reading, or without one if the category was not read any more.  Whatever
others do at the pauses, as long as they leave the crawl's task alone, the visits of a
crawl decide what its subtasks show and how it comes out (`crawl_ensures`).  If nobody
else requests cancellation either, they are the visits that `Crawler.visits` computes from
the readings alone, and the crawl asks for nothing but what these visits ask for.
-/

namespace Reconcile

open Tracker (SameOn Bare)

/-- Others leave a task and everything below it alone. -/
def Spares (task : Address) (others : Tracker → Tracker → Prop) : Prop :=
  ∀ tr tr', others tr tr' → SameOn (task <+: ·) tr tr'

/-- Others do not request cancellation of the whole. -/
def Quiet (others : Tracker → Tracker → Prop) : Prop :=
  ∀ tr tr', others tr tr' → tr'.cancelledAt [] = tr.cancelledAt []

theorem Spares.of_below {task : Address} {others : Tracker → Tracker → Prop} {n : Nat}
    (h : Spares task others) : Spares (task ++ [n]) others :=
  fun tr tr' hothers =>
    (h tr tr' hothers).mono fun _ hbelow => (List.prefix_append task [n]).trans hbelow

/-! ## One reading -/

namespace Reading

variable {α : Type} {others : Tracker → Tracker → Prop} {task : Address} {tr : Tracker}
  {s : TaskState} {sent : List Inquiry}

/-- How a reading leaves its task, and if others are quiet, how it comes out and what was asked
for by then, if that was `sent` before it. -/
def Ends (r : Reading α) (others : Tracker → Tracker → Prop) (task : Address) (s : TaskState)
    (cancelled : Bool) (sent : List Inquiry) (outcome : Except Fault α) (sent' : List Inquiry)
    (tr : Tracker) : Prop :=
  ∃ s', s.Reports s' ∧ tr.Holds task s' []
    ∧ (Quiet others →
        outcome = r.answer cancelled ∧ tr.cancelledAt [] = r.endsCancelled cancelled
          ∧ sent' = sent ++ (r.queries cancelled).map .query)

/-- A report on the task, before what is read next. -/
theorem report_ensures {next : Reading α} {work : Tracked Unit} {s₁ : TaskState}
    {tr₁ : Tracker} (hrun : work.on tr = (.ok (), tr₁)) (hreports : s.Reports s₁)
    (hwrites : tr.Writes task s₁ tr₁)
    (hnext : (next.under task).Ensures others (· ≠ task)
      (next.Ends others task s₁ (tr₁.cancelledAt []) sent) sent tr₁) :
    (do Activity.lift work; next.under task : Activity α).Ensures others (· ≠ task)
      (next.Ends others task s (tr.cancelledAt []) sent) sent tr := by
  rw [hwrites.requested] at hnext
  refine .lift_bind hrun (hwrites.sameOn fun hne => hne rfl) (hnext.weaken ?_)
  rintro outcome sent' tr' ⟨s', hreports', hrest⟩
  exact ⟨s', hreports.trans hreports', hrest⟩

/-- A reading reports on its own task and on no other. -/
theorem under_ensures (r : Reading α) (sent : List Inquiry) (hspares : Spares task others)
    (h : tr.Holds task s []) (hrunning : s.status = .running) :
    (r.under task).Ensures others (· ≠ task) (r.Ends others task s (tr.cancelledAt []) sent)
      sent tr := by
  -- The induction is on the reading, and what it keeps is that the task runs: only its
  -- percentage and its message may have changed so far.
  induction r generalizing sent tr s with
  | done outcome => exact ⟨s, .refl s, h, fun _ => ⟨rfl, rfl, (List.append_nil sent).symm⟩⟩
  | query q next ih =>
      have hnext := ih (sent ++ [.query q]) h hrunning
      unfold Ends at hnext
      simp only [List.append_assoc] at hnext
      exact hnext
  | pause next ih =>
      intro tr' hothers
      refine (ih sent (h.of_below (hspares tr tr' hothers)) hrunning).weaken ?_
      rintro outcome sent' tr'' ⟨s', hreports, hholds, hquiet⟩
      refine ⟨s', hreports, hholds, fun hothers' => ?_⟩
      rw [← hothers' tr tr' hothers]
      exact hquiet hothers'
  | interrupt next ih =>
      have hsame : SameOn (fun _ => True) tr (tr.attempt [] .cancel) :=
        fun b _ => congrFun (Tracker.attempt_cancel_recorded [] tr) b
      refine ⟨hsame.mono fun _ _ => trivial, ?_⟩
      have hnext := ih sent (h.of_below (hsame.mono fun _ _ => trivial)) hrunning
      rw [Tracker.cancelledAt_attempt_cancel] at hnext
      exact hnext
  | poll next ih => exact .isCancelled_bind (ih (tr.cancelledAt []) sent h hrunning)
  | progress n m next ih =>
      have hopen : s.status.isFinal = false := by
        rw [hrunning]
        rfl
      obtain ⟨tr₁, hrun, hwrites⟩ := Tracked.setPercentage_ok (Task.share n m) h hopen
      exact report_ensures hrun (.percentage s _) hwrites (ih sent (h.writes_self hwrites) hrunning)
  | message text next ih =>
      have hopen : s.status.isFinal = false := by
        rw [hrunning]
        rfl
      obtain ⟨tr₁, hrun, hwrites⟩ := Tracked.setMessage_ok text h hopen
      exact report_ensures hrun (.message s _) hwrites (ih sent (h.writes_self hwrites) hrunning)

end Reading

/-! ## Visits -/

/-- A category, and how its reading came out if it was read. -/
abbrev Visit : Type := (c : Category) × Option (Except Fault (List c.Object))

/-- The task of a category after its work came out so. -/
structure Category.Shows {α : Type} (c : Category) (outcome : Except Fault α)
    (k : TaskState) : Prop where
  name : k.name = c.label
  status : k.status = Tracked.endStatus outcome
  message : ∀ text, Tracked.endMessage outcome = some text → k.message = text

namespace Visit

/-- The visit of a category that is not read. -/
def unread (c : Category) : Visit :=
  ⟨c, none⟩

/-- The visit of a category whose reading came out so. -/
def read {c : Category} (outcome : Except Fault (List c.Object)) : Visit :=
  ⟨c, some outcome⟩

/-- The visit of a category at which a crawl stops, where the flag says whether cancellation
was requested before it. -/
def last (c : Category) : Bool → Visit
  | true => unread c
  | false => read (c := c) (.error .cancelled)

/-- Nothing is read after such a visit. -/
def Stops (v : Visit) : Prop :=
  v.2 = none ∨ v.2 = some (.error .cancelled)

theorem last_stops (c : Category) (requested : Bool) : (last c requested).Stops := by
  cases requested
  · exact Or.inr rfl
  · exact Or.inl rfl

theorem last_fst (c : Category) (requested : Bool) : (last c requested).1 = c := by
  cases requested <;> rfl

/-- The task of a category shows what became of it.  A category that was not read shows a
task that was never started. -/
def ShownBy (v : Visit) (k : TaskState) : Prop :=
  match v.2 with
  | none => k = (TaskState.fresh v.1.label 1).stopped
  | some outcome => v.1.Shows outcome k

theorem shownBy_unread (cats : List Category) :
    List.Forall₂ ShownBy (cats.map unread)
      (cats.map fun c => (TaskState.fresh c.label 1).stopped) := by
  induction cats with
  | nil => exact .nil
  | cons c rest ih => exact .cons rfl ih

theorem map_fst_unread (cats : List Category) : (cats.map unread).map Sigma.fst = cats := by
  rw [List.map_map]
  exact List.map_id cats

end Visit

/-- What is asked for to read a category that is begun before cancellation was requested. -/
def Crawler.inquiries (crawler : Crawler) (c : Category) : List Inquiry :=
  .category c :: ((crawler.read c).queries false).map .query

/-- What a visit asks for. -/
def Visit.inquiries (crawler : Crawler) (v : Visit) : List Inquiry :=
  match v.2 with
  | none => []
  | some _ => crawler.inquiries v.1

theorem Visit.inquiries_last (crawler : Crawler) (c : Category) (requested : Bool) :
    (last c requested).inquiries crawler = if requested then [] else crawler.inquiries c := by
  cases requested <;> rfl

/-- Where nothing is read, nothing is asked for. -/
theorem Visit.flatMap_inquiries_unread (crawler : Crawler) (cats : List Category) :
    (cats.map unread).flatMap (inquiries crawler) = [] := by
  rw [List.flatMap_map]
  exact List.flatMap_eq_nil_iff.mpr fun _ _ => rfl

/-- The visits of a crawl through categories, where the flag says whether cancellation was
requested before and nobody else requests it meanwhile. -/
def Crawler.visits (crawler : Crawler) : Bool → List Category → List Visit
  | _, [] => []
  | true, c :: later => (c :: later).map .unread
  | false, c :: later =>
      let r := crawler.read c
      .read (r.answer false) ::
        match r.answer false with
        | .error .cancelled => later.map .unread
        | _ => crawler.visits (r.endsCancelled false) later

theorem Crawler.visits_of_cancelled {crawler : Crawler} {c : Category} (later : List Category)
    (h : (crawler.read c).answer false = .error .cancelled) :
    crawler.visits false (c :: later) = .read (c := c) (.error .cancelled) :: later.map .unread := by
  rw [visits, h]

theorem Crawler.visits_of_ne {crawler : Crawler} {c : Category} (later : List Category)
    (h : (crawler.read c).answer false ≠ .error .cancelled) :
    crawler.visits false (c :: later)
      = .read ((crawler.read c).answer false)
        :: crawler.visits ((crawler.read c).endsCancelled false) later := by
  rw [visits]
  congr 1
  split
  · contradiction
  · rfl

namespace CrawlState

/-- What a visit adds to what was found and to what failed. -/
def visit (s : CrawlState) (v : Visit) : CrawlState :=
  match v.2 with
  | none => s
  | some outcome => s.after v.1 outcome

/-- How reading the categories comes out after these visits. -/
def Through (s : CrawlState) (visits : List Visit) (outcome : Except Fault CrawlState) : Prop :=
  (∃ v ∈ visits, v.Stops) ∧ outcome = .error .cancelled
    ∨ (∀ v ∈ visits, ¬ v.Stops) ∧ outcome = .ok (visits.foldl visit s)

theorem Through.cons {s : CrawlState} {v : Visit} {visits : List Visit}
    {outcome : Except Fault CrawlState} (hgoes : ¬ v.Stops)
    (h : (s.visit v).Through visits outcome) : s.Through (v :: visits) outcome := by
  rcases h with ⟨⟨w, hw, hstops⟩, houtcome⟩ | ⟨hall, houtcome⟩
  · exact Or.inl ⟨⟨w, List.mem_cons_of_mem v hw, hstops⟩, houtcome⟩
  · exact Or.inr ⟨List.forall_mem_cons.mpr ⟨hgoes, hall⟩, houtcome⟩

end CrawlState

/-! ## Reading the categories -/

section Reading

variable {others : Tracker → Tracker → Prop} {crawler : Crawler} {task : Address}
  {tr : Tracker} {s : TaskState} {old kids done : List TaskState} {cats later : List Category}
  {sent sent₀ : List Inquiry}

/-- The post-state of a crawl's way through categories: their tasks stand behind those of
`front` and show the visits, and what was asked for after `sent` is what the visits ask for. -/
def VisitsTo (crawler : Crawler) (others : Tracker → Tracker → Prop) (task : Address)
    (s : TaskState) (front : List TaskState) (cancelled : Bool) (later : List Category)
    (sent : List Inquiry) (visits : List Visit) (sent' : List Inquiry) (tr : Tracker) : Prop :=
  ∃ kids, tr.Holds task s (front ++ kids) ∧ List.Forall₂ Visit.ShownBy visits kids
    ∧ visits.map Sigma.fst = later
    ∧ (Quiet others → visits = crawler.visits cancelled later
        ∧ sent' = sent ++ visits.flatMap (Visit.inquiries crawler))

/-- Stopping marks the tasks of the categories that have not ended. -/
theorem stop_ensures (h : tr.Holds task s (old ++ kids)) (hlength : cats.length = kids.length) :
    (readCategories.stop ((Category.tasksFrom task old.length cats).map Prod.snd)).Ensures
      others (¬ task.Near ·)
      (fun outcome sent' tr' => outcome = .error .cancelled ∧ sent' = sent
        ∧ tr'.Holds task s (old ++ kids.map TaskState.stopped)) sent tr := by
  obtain ⟨tr', hrun, hholds, hconfined, -⟩ := Tracked.cancelUnfinished_siblings cats h hlength
  exact .lift_bind hrun hconfined ⟨rfl, rfl, hholds⟩

/-- One category, before which cancellation was not seen: its task is started, read under, and
ended as the reading came out. -/
theorem category_ensures (crawler : Crawler) {c : Category} {front back : List TaskState}
    (hspares : Spares task others)
    (h : tr.Holds task s (front ++ .fresh c.label 1 :: back)) (hbare : Bare task front.length tr)
    (hflag : tr.cancelledAt [] = false)
    (f : Except Fault (List c.Object) → Activity CrawlState)
    {post : Except Fault CrawlState → List Inquiry → Tracker → Prop}
    (hnext : ∀ outcome k sent' tr', c.Shows outcome k → tr'.Holds task s (front ++ k :: back) →
      Bare task (front.length + 1) tr' →
      (Quiet others → outcome = (crawler.read c).answer false
        ∧ tr'.cancelledAt [] = (crawler.read c).endsCancelled false
        ∧ sent' = sent ++ crawler.inquiries c) →
      (f outcome).Ensures others (¬ task.Near ·) post sent' tr') :
    (do
      Activity.lift (Tracked.start (task ++ [front.length]))
      ((crawler.reading c (task ++ [front.length])).settling
        (task ++ [front.length])).andThen f : Activity CrawlState).Ensures
      others (¬ task.Near ·) post sent tr := by
  let own := task ++ [front.length]
  have hleaf := h.leaf_child (hbare _ (le_refl _))
  obtain ⟨tr₁, hstart, hwrites₁⟩ := Tracked.start_ok hleaf rfl
  have h₁ := h.writes_child hwrites₁
  have hbare₁ := hbare.of_confined hwrites₁.confined_child (le_refl _)
  refine .lift_bind hstart hwrites₁.confined_child ?_
  -- While the category is read, everything else at the crawl's task stays as it is.
  have hread := ((crawler.read c).under_ensures (sent ++ [.category c])
    hspares.of_below (hleaf.writes_self hwrites₁) rfl).frame hspares (SameOn.refl _ tr₁)
  rw [hwrites₁.requested, hflag] at hread
  have hkept : ∀ b, ¬ task.Near b → b ≠ own := by
    rintro b hb rfl
    exact hb (task.near_child _)
  have hended : ((crawler.reading c own).settling own).Ensures others
      (¬ task.Near ·)
      (fun outcome sent' tr' => ∃ k, c.Shows outcome k ∧ tr'.Holds task s (front ++ k :: back)
        ∧ Bare task (front.length + 1) tr'
        ∧ (Quiet others → outcome = (crawler.read c).answer false
          ∧ tr'.cancelledAt [] = (crawler.read c).endsCancelled false
          ∧ sent' = sent ++ crawler.inquiries c)) sent tr₁ := by
    refine (hread.mono hkept fun _ _ _ hpost => hpost).settling ?_
    rintro outcome sent₂ tr₂ ⟨⟨s', hreports, hholds₂, hquiet⟩, hsame⟩
    have hwrites₃ := Tracked.settle_writes outcome hholds₂ hreports.status_eq
    have h₂ : tr₂.Holds task s (front ++ s' :: back) := by
      refine h₁.change_child hholds₂.told_self fun b hnear hne => ?_
      exact hsame.told ⟨hne, hnear.below⟩
    have hbare₂ : Bare task (front.length + 1) tr₂ := by
      refine hbare₁.of_same (Nat.le_succ _) fun i m => hsame.told ⟨by simp, ?_⟩
      rw [List.append_assoc]
      exact List.prefix_append task _
    refine ⟨hwrites₃.confined_child, _, ⟨?_, rfl, ?_⟩, h₂.writes_child hwrites₃,
      hbare₂.of_confined hwrites₃.confined_child (le_refl _), fun hothers => ?_⟩
    · rw [TaskState.passed_name, hreports.name_eq]
      rfl
    · intro text htext
      rw [TaskState.passed_message, htext]
      rfl
    · obtain ⟨houtcome, hflag', hsent⟩ := hquiet hothers
      rw [List.append_assoc] at hsent
      exact ⟨houtcome, hwrites₃.requested.trans hflag', hsent⟩
  refine hended.andThen ?_
  rintro outcome sent' tr' ⟨k, hshows, hholds, hbare', hquiet⟩
  exact hnext outcome k sent' tr' hshows hholds hbare' hquiet

/-- What is done once a category was read. -/
def readCategories.next (crawler : Crawler) (all : List Address)
    (later : List (Category × Address)) (st : CrawlState) (c : Category) :
    Except Fault (List c.Object) → Activity CrawlState
  | .error .cancelled => readCategories.stop all
  | outcome => readCategories crawler all later (st.after c outcome)

theorem readCategories_next_of_ne {all : List Address} {rest : List (Category × Address)}
    {st : CrawlState} {c : Category} {outcome : Except Fault (List c.Object)}
    (h : outcome ≠ .error .cancelled) :
    readCategories.next crawler all rest st c outcome
      = readCategories crawler all rest (st.after c outcome) := by
  unfold readCategories.next
  split
  · contradiction
  · rfl

theorem readCategories_cons (crawler : Crawler) (all : List Address) (c : Category)
    (own : Address) (rest : List (Category × Address)) (st : CrawlState) :
    readCategories crawler all ((c, own) :: rest) st
      = (Activity.isCancelled >>= fun cancelled =>
          if cancelled then readCategories.stop all
          else (do
            Activity.lift (Tracked.start own)
            ((crawler.reading c own).settling own).andThen
              (readCategories.next crawler all rest st c))) := by
  rw [readCategories]
  rfl

/-- When the crawl stops at a category, the later ones are not read. -/
theorem stop_visits {c : Category} {k : TaskState} (st : CrawlState) (v : Visit)
    {cancelled : Bool} (hdone : ∀ k ∈ done, k.status.isFinal = true)
    (hlength : cats.length = done.length + (c :: later).length)
    (h : tr.Holds task s (old ++ done ++ k :: later.map fun c => .fresh c.label 1))
    (hcategory : v.1 = c) (hstops : v.Stops) (hshown : v.ShownBy k.stopped)
    (hvisits : Quiet others → v :: later.map .unread = crawler.visits cancelled (c :: later)
      ∧ sent = sent₀ ++ v.inquiries crawler) :
    (readCategories.stop ((Category.tasksFrom task old.length cats).map Prod.snd)).Ensures
      others (¬ task.Near ·)
      (fun outcome sent' tr' => ∃ visits, st.Through visits outcome
        ∧ VisitsTo crawler others task s (old ++ done) cancelled (c :: later) sent₀ visits
            sent' tr') sent tr := by
  -- Of all the tasks that are stopped only those that have not ended change.
  have hkept : done.map TaskState.stopped = done :=
    (List.map_congr_left fun k hk => TaskState.stopped_of_final (hdone k hk)).trans
      (List.map_id' done)
  rw [List.append_assoc] at h
  have hcount : cats.length
      = (done ++ k :: later.map fun c => TaskState.fresh c.label 1).length := by
    simpa using hlength
  refine (stop_ensures h hcount).weaken ?_
  rintro outcome sent' tr' ⟨rfl, rfl, hholds⟩
  rw [List.map_append, hkept, List.map_cons, List.map_map, ← List.append_assoc] at hholds
  refine ⟨v :: later.map .unread, Or.inl ⟨⟨v, List.mem_cons_self, hstops⟩, rfl⟩, _, hholds,
    .cons hshown (Visit.shownBy_unread later), ?_, ?_⟩
  · rw [List.map_cons, Visit.map_fst_unread, hcategory]
  · rw [List.flatMap_cons, Visit.flatMap_inquiries_unread, List.append_nil]
    exact hvisits

/-- The rest of the categories, of which all are still to be read.  Those in `done` have
been read. -/
theorem readCategories_ensures (crawler : Crawler) (cats : List Category) (sent : List Inquiry)
    (hspares : Spares task others) (st : CrawlState)
    (h : tr.Holds task s (old ++ done ++ later.map fun c => .fresh c.label 1))
    (hbare : Bare task (old ++ done).length tr)
    (hdone : ∀ k ∈ done, k.status.isFinal = true)
    (hlength : cats.length = done.length + later.length) :
    (readCategories crawler ((Category.tasksFrom task old.length cats).map Prod.snd)
        (Category.tasksFrom task (old ++ done).length later) st).Ensures others (¬ task.Near ·)
      (fun outcome sent' tr' => ∃ visits, st.Through visits outcome
        ∧ VisitsTo crawler others task s (old ++ done) (tr.cancelledAt []) later sent visits
            sent' tr') sent tr := by
  induction later generalizing sent tr done st with
  | nil =>
      refine ⟨[], Or.inr ⟨by simp, rfl⟩, [], by simpa using h, .nil, rfl, fun _ => ⟨?_, ?_⟩⟩
      · cases tr.cancelledAt [] <;> rfl
      · exact (List.append_nil sent).symm
  | cons c rest ih =>
      rw [Category.tasksFrom, readCategories_cons]
      refine .isCancelled_bind ?_
      cases hflag : tr.cancelledAt [] with
      | true =>
          -- Cancellation is seen before the category is read.
          exact stop_visits st (.unread c) hdone hlength h rfl (Or.inl rfl) rfl
            fun _ => ⟨rfl, (List.append_nil sent).symm⟩
      | false =>
          refine category_ensures crawler hspares h hbare hflag _ ?_
          intro outcome k sent' tr' hshows h' hbare' hquiet
          have hfinal : k.status.isFinal = true := by
            rw [hshows.status]
            exact Tracked.endStatus_isFinal outcome
          by_cases hcancelled : outcome = .error .cancelled
          · -- The reading itself answers that it was cancelled.
            subst hcancelled
            refine stop_visits st (.read (c := c) (.error .cancelled)) hdone hlength h' rfl
              (Or.inr rfl) ?_ fun hothers => ?_
            · rw [TaskState.stopped_of_final hfinal]
              exact hshows
            · obtain ⟨houtcome, -, hsent⟩ := hquiet hothers
              exact ⟨(Crawler.visits_of_cancelled rest houtcome.symm).symm, hsent⟩
          · -- Whether it was read or failed, the crawl goes on to the next category.
            rw [readCategories_next_of_ne hcancelled]
            have hcount : cats.length = (done ++ [k]).length + rest.length := by
              simp only [List.length_append, List.length_cons, List.length_nil] at hlength ⊢
              omega
            have hdone' : ∀ k' ∈ done ++ [k], k'.status.isFinal = true := by
              intro k' hk'
              rcases List.mem_append.mp hk' with hk' | hk'
              · exact hdone k' hk'
              · rw [List.mem_singleton.mp hk', hfinal]
            have hholds' : tr'.Holds task s
                (old ++ (done ++ [k]) ++ rest.map fun c => .fresh c.label 1) := by
              simpa using h'
            have hbare'' : Bare task (old ++ (done ++ [k])).length tr' := by
              rwa [← List.append_assoc, List.length_append]
            have hrest := ih sent' (st.after c outcome) hholds' hbare'' hdone' hcount
            rw [← List.append_assoc, List.length_append] at hrest
            refine hrest.weaken ?_
            rintro outcome' sent'' tr''
              ⟨visits, hthrough, kids, hholds, hshown, hcategories, hvisits⟩
            refine ⟨.read outcome :: visits, .cons ?_ hthrough, k :: kids, by simpa using hholds,
              .cons hshows hshown, ?_, fun hothers => ?_⟩
            · rintro (hnone | hsome)
              · cases hnone
              · exact hcancelled (Option.some.inj hsome)
            · rw [List.map_cons, hcategories]
              rfl
            · obtain ⟨houtcome, hflag', hsent⟩ := hquiet hothers
              obtain ⟨hrestVisits, hrestSent⟩ := hvisits hothers
              refine ⟨?_, ?_⟩
              · rw [houtcome] at hcancelled
                rw [Crawler.visits_of_ne rest hcancelled, ← hflag', ← hrestVisits, houtcome]
              · rw [hrestSent, hsent, List.append_assoc]
                rfl

/-! ## The whole crawl -/

/-- How a crawl comes out when its categories were read to the last one. -/
def CrawlState.finish (st : CrawlState) : Except Fault Model :=
  if st.failures.isEmpty then .ok st.model else .error (.crawl (.categories st.failures))

theorem CrawlState.finish_eq (st : CrawlState) :
    (if st.failures.isEmpty then return st.model
      else Activity.fail (.crawl (.categories st.failures)) : Activity Model)
      = .done st.finish := by
  unfold finish
  split <;> rfl

/-- A crawl that has found nothing yet. -/
def Crawler.beginning (crawler : Crawler) : CrawlState :=
  { model := { dialect := crawler.dialect, database := crawler.database } }

/-- How a crawl comes out after these visits. -/
def Crawler.ComesTo (crawler : Crawler) (visits : List Visit) (outcome : Except Fault Model) :
    Prop :=
  (∃ v ∈ visits, v.Stops) ∧ outcome = .error .cancelled
    ∨ (∀ v ∈ visits, ¬ v.Stops) ∧ outcome = (visits.foldl CrawlState.visit crawler.beginning).finish

/-- What a crawl leaves at its task, which told `s` and had the subtasks `old`. -/
def Crawler.Leaves (crawler : Crawler) (others : Tracker → Tracker → Prop) (task : Address)
    (s : TaskState) (old : List TaskState) (cancelled : Bool) (sent : List Inquiry)
    (outcome : Except Fault Model) (sent' : List Inquiry) (tr : Tracker) : Prop :=
  ∃ visits, crawler.ComesTo visits outcome
    ∧ VisitsTo crawler others task
        (s.begun.passed (Tracked.endStatus outcome) (Tracked.endMessage outcome) false) old
        cancelled Category.all sent visits sent' tr

theorem readAll_ensures (crawler : Crawler) (sent : List Inquiry) (hspares : Spares task others)
    (h : tr.Holds task s old) (hopen : s.status.isFinal = false) :
    (do
      let tasks ← Activity.lift (Tracked.addCategories task)
      let st ← readCategories crawler (tasks.map Prod.snd) tasks crawler.beginning
      if st.failures.isEmpty then return st.model
      else Activity.fail (.crawl (.categories st.failures)) : Activity Model).Ensures
      others (¬ task.Near ·)
      (fun outcome sent' tr' => ∃ visits, crawler.ComesTo visits outcome
        ∧ VisitsTo crawler others task s old (tr.cancelledAt []) Category.all sent visits
            sent' tr') sent tr := by
  obtain ⟨tr₁, hadd, hholds₁, hconfined₁, hflag₁⟩ := Tracked.addCategories_ok h hopen
  refine .lift_bind hadd hconfined₁ ?_
  have hfresh : tr₁.Holds task s (old ++ [] ++ Category.all.map fun c => .fresh c.label 1) := by
    rwa [List.append_nil]
  have hbare : Bare task (old ++ []).length tr₁ := by
    rw [List.append_nil]
    exact h.bare.of_confined hconfined₁ (le_refl _)
  have hread := readCategories_ensures crawler Category.all sent hspares
    crawler.beginning hfresh hbare (by simp) (by simp)
  rw [List.append_nil, hflag₁] at hread
  refine hread.bind ?_ ?_
  · rintro st sent' tr' ⟨visits, ⟨-, houtcome⟩ | ⟨hall, houtcome⟩, hvisits⟩
    · cases houtcome
    · cases houtcome
      rw [CrawlState.finish_eq]
      exact ⟨visits, Or.inr ⟨hall, rfl⟩, hvisits⟩
  · rintro e sent' tr' ⟨visits, ⟨hstops, houtcome⟩ | ⟨-, houtcome⟩, hvisits⟩
    · cases houtcome
      exact ⟨visits, Or.inl ⟨hstops, rfl⟩, hvisits⟩
    · cases houtcome

/-- However the others act that leave its task alone, the visits of a crawl decide what it
leaves. -/
theorem crawl_ensures (crawler : Crawler) (sent : List Inquiry) (hspares : Spares task others)
    (h : tr.Holds task s old) (hcreated : s.status = .created) :
    (crawl crawler task).Ensures others (¬ task.Near ·)
      (crawler.Leaves others task s old (tr.cancelledAt []) sent) sent tr := by
  obtain ⟨tr₁, hstart, hwrites₁⟩ := Tracked.start_ok h hcreated
  refine .lift_bind hstart hwrites₁.confined_self ?_
  have hread := readAll_ensures crawler sent hspares (h.writes_self hwrites₁) rfl
  rw [hwrites₁.requested] at hread
  refine hread.settling ?_
  rintro outcome sent₂ tr₂ ⟨visits, hcomes, kids, hholds, hshown, hcategories, hvisits⟩
  have hwrites := Tracked.settle_writes outcome hholds rfl
  have hinner : (old ++ kids).isEmpty = false := by
    cases hshown with
    | nil => cases hcategories
    | cons _ _ => simp
  rw [hinner] at hwrites
  exact ⟨hwrites.confined_self, visits, hcomes, kids, hholds.writes_self hwrites, hshown,
    hcategories, fun hothers => hvisits hothers⟩

/-- Without failures no visit has failed. -/
theorem foldl_visit_failures {visits : List Visit} {st : CrawlState}
    (h : (visits.foldl CrawlState.visit st).failures = []) :
    st.failures = [] ∧ ∀ v ∈ visits, ∀ e, v.2 ≠ some (.error e) := by
  induction visits generalizing st with
  | nil => exact ⟨h, by simp⟩
  | cons v rest ih =>
      obtain ⟨hfirst, hrest⟩ := ih h
      obtain ⟨c, outcome⟩ := v
      rcases outcome with _ | (e | objects)
      · exact ⟨hfirst, List.forall_mem_cons.mpr ⟨nofun, hrest⟩⟩
      · exact absurd (List.append_eq_nil_iff.mp hfirst).2 (List.cons_ne_nil _ _)
      · exact ⟨hfirst, List.forall_mem_cons.mpr ⟨nofun, hrest⟩⟩

/-- Categories whose visits all stopped nothing and failed in nothing are completed. -/
theorem completed_of_shown {visits : List Visit} (h : List.Forall₂ Visit.ShownBy visits kids)
    (hgoes : ∀ v ∈ visits, ¬ v.Stops) (hnone : ∀ v ∈ visits, ∀ e, v.2 ≠ some (.error e)) :
    ∀ k ∈ kids, k.status = .completed := by
  induction h with
  | nil => simp
  | @cons v k visits kids hk _ ih =>
      rw [List.forall_mem_cons] at hgoes hnone
      refine List.forall_mem_cons.mpr ⟨?_, ih hgoes.2 hnone.2⟩
      obtain ⟨c, outcome⟩ := v
      rcases outcome with _ | (e | objects)
      · exact absurd (Or.inl rfl) hgoes.1
      · exact absurd rfl (hnone.1 e)
      · exact Category.Shows.status hk

/-- A crawl that succeeds under a task without subtasks leaves it finished. -/
theorem Crawler.Leaves.finished {crawler : Crawler} {cancelled : Bool} {m : Model}
    (h : crawler.Leaves others task s [] cancelled sent₀ (.ok m) sent tr) :
    tr.Finished task := by
  obtain ⟨visits, hcomes, kids, hholds, hshown, -⟩ := h
  rcases hcomes with ⟨-, houtcome⟩ | ⟨hgoes, houtcome⟩
  · cases houtcome
  · have hfailures : (visits.foldl CrawlState.visit crawler.beginning).failures = [] := by
      unfold CrawlState.finish at houtcome
      split at houtcome
      · next hempty => exact List.isEmpty_iff.mp hempty
      · cases houtcome
    obtain ⟨-, hnone⟩ := foldl_visit_failures hfailures
    exact ⟨_, kids, hholds, rfl, completed_of_shown hshown hgoes hnone⟩

end Reading

end Reconcile
