import Reconcile.Crawl.Rehearsal
import Reconcile.Proofs.Filing
import Reconcile.Proofs.Visits

/-!
# The course of a crawl

A crawl reads the categories in order.  A category that fails does not keep the later ones
from being read, but the crawl then fails with all that failed.  Once cancellation is seen,
before a category or by its reading, nothing more is read.  `CrawlCourse` says how the
crawl's task, its subtasks and its outcome come out for every crawler, and what was asked
for on the way: which categories, one after another, and with which queries.
`crawl_course` proves it of `crawl`.

What a crawler's readings come to by themselves decides which course it is: either the
crawl goes on through all categories, or through those before the one that it stops at
(`Crawler.goesOn_or_stops`).
-/

namespace Reconcile

open Tracker (Confined)

namespace Crawler

variable {crawler : Crawler} {cancelled : Bool} {before after cats : List Category}
  {c : Category}

/-- How the reading of a category comes out that is begun before cancellation was
requested. -/
def answer (crawler : Crawler) (c : Category) : Except Fault (List c.Object) :=
  (crawler.read c).answer false

/-- The crawl goes on through these categories: cancellation is seen before none of them
and by none of their readings. -/
def GoesOn (crawler : Crawler) : Bool → List Category → Prop
  | _, [] => True
  | cancelled, c :: rest =>
      cancelled = false ∧ crawler.answer c ≠ .error .cancelled
        ∧ crawler.GoesOn ((crawler.read c).endsCancelled false) rest

/-- Whether cancellation was requested by the time that these categories were read. -/
def requestedBy (crawler : Crawler) : Bool → List Category → Bool
  | cancelled, [] => cancelled
  | _, c :: rest => crawler.requestedBy ((crawler.read c).endsCancelled false) rest

/-- The categories that cannot be read, in order, with what is said of each. -/
def failures (crawler : Crawler) : List (Category × String) :=
  Category.all.filterMap fun c =>
    match crawler.answer c with
    | .ok _ => none
    | .error e => some (c, e.message)

/-- All objects that the readings answer, in order, each with the category that it belongs
to. -/
def found (crawler : Crawler) : List Filed :=
  Category.all.flatMap fun c =>
    match crawler.answer c with
    | .ok objects => objects.map c.own
    | .error _ => []

/-- A crawl either goes on through all categories or stops at one of them. -/
theorem goesOn_or_stops (crawler : Crawler) (cancelled : Bool) (cats : List Category) :
    crawler.GoesOn cancelled cats
      ∨ ∃ before c after, cats = before ++ c :: after ∧ crawler.GoesOn cancelled before
        ∧ (crawler.requestedBy cancelled before = true
          ∨ crawler.answer c = .error .cancelled) := by
  induction cats generalizing cancelled with
  | nil => exact Or.inl trivial
  | cons c rest ih =>
      by_cases hstops : cancelled = true ∨ crawler.answer c = .error .cancelled
      · exact Or.inr ⟨[], c, rest, rfl, trivial, hstops⟩
      · rw [not_or, Bool.not_eq_true] at hstops
        rcases ih ((crawler.read c).endsCancelled false) with
          hall | ⟨before, d, after, rfl, hbefore, hstop⟩
        · exact Or.inl ⟨hstops.1, hstops.2, hall⟩
        · exact Or.inr ⟨c :: before, d, after, rfl, ⟨hstops.1, hstops.2, hbefore⟩, hstop⟩

/-! ## The visits of a crawler -/

/-- The categories that a crawl goes on through are all read. -/
theorem visits_append (after : List Category) (h : crawler.GoesOn cancelled before) :
    crawler.visits cancelled (before ++ after)
      = before.map (fun c => .read (crawler.answer c))
        ++ crawler.visits (crawler.requestedBy cancelled before) after := by
  induction before generalizing cancelled with
  | nil => rfl
  | cons c rest ih =>
      obtain ⟨rfl, hanswer, hrest⟩ := h
      rw [List.cons_append, visits_of_ne _ hanswer, ih hrest]
      rfl

theorem visits_of_goesOn (h : crawler.GoesOn cancelled cats) :
    crawler.visits cancelled cats = cats.map fun c => .read (crawler.answer c) := by
  have hvisits := visits_append [] h
  rw [List.append_nil] at hvisits
  rw [hvisits]
  cases crawler.requestedBy cancelled cats <;> exact List.append_nil _

/-- Where a crawl stops, a category is either not read or its reading is cancelled, and
the later ones are not read. -/
theorem visits_of_stops (after : List Category) (h : crawler.GoesOn cancelled before)
    (hstop : crawler.requestedBy cancelled before = true
      ∨ crawler.answer c = .error .cancelled) :
    crawler.visits cancelled (before ++ c :: after)
      = before.map (fun c => .read (crawler.answer c))
        ++ .last c (crawler.requestedBy cancelled before) :: after.map .unread := by
  rw [visits_append _ h]
  cases hrequested : crawler.requestedBy cancelled before with
  | true => rfl
  | false =>
      rw [hrequested] at hstop
      have hanswer := hstop.resolve_left Bool.false_ne_true
      exact congrArg _ (visits_of_cancelled after hanswer)

theorem goesOn_answer (h : crawler.GoesOn cancelled cats) :
    ∀ c ∈ cats, crawler.answer c ≠ .error .cancelled := by
  induction cats generalizing cancelled with
  | nil => simp
  | cons c rest ih => exact List.forall_mem_cons.mpr ⟨h.2.1, ih h.2.2⟩

/-! ## What is asked for -/

theorem flatMap_inquiries_read (crawler : Crawler) (cats : List Category) :
    (cats.map fun c => Visit.read (crawler.answer c)).flatMap (Visit.inquiries crawler)
      = cats.flatMap crawler.inquiries := by
  rw [List.flatMap_map]
  rfl

/-- A crawl that stops asks for the categories before, and for the one that it stops at only if
cancellation was not requested by then. -/
theorem flatMap_inquiries_stops (crawler : Crawler) (before after : List Category)
    (c : Category) (requested : Bool) :
    (before.map (fun c => Visit.read (crawler.answer c))
        ++ Visit.last c requested :: after.map .unread).flatMap (Visit.inquiries crawler)
      = before.flatMap crawler.inquiries ++ if requested then [] else crawler.inquiries c := by
  rw [List.flatMap_append, List.flatMap_cons, flatMap_inquiries_read, Visit.inquiries_last,
    Visit.flatMap_inquiries_unread, List.append_nil]

/-- The queries among what is asked for to read a category. -/
theorem filterMap_inquiries (crawler : Crawler) (c : Category) :
    (crawler.inquiries c).filterMap Inquiry.query? = (crawler.read c).queries false := by
  rw [inquiries, List.filterMap_cons_none rfl, List.filterMap_map]
  exact List.filterMap_some

/-- What the visits ask for are, apart from the categories, the crawler's queries. -/
theorem queries_of_visits (crawler : Crawler) (cancelled : Bool) (cats : List Category) :
    ((crawler.visits cancelled cats).flatMap (Visit.inquiries crawler)).filterMap Inquiry.query?
      = crawler.queries cancelled cats := by
  induction cats generalizing cancelled with
  | nil => cases cancelled <;> rfl
  | cons c later ih =>
      cases cancelled with
      | true =>
          rw [visits, Visit.flatMap_inquiries_unread, queries]
          rfl
      | false =>
          have hfirst : ∀ outcome, ((Visit.read (c := c) outcome).inquiries crawler).filterMap
              Inquiry.query? = (crawler.read c).queries false :=
            fun _ => crawler.filterMap_inquiries c
          rw [queries]
          by_cases hcancelled : (crawler.read c).answer false = .error .cancelled
          · -- A reading that was cancelled is the last thing asked for.
            rw [visits_of_cancelled later hcancelled, List.flatMap_cons,
              Visit.flatMap_inquiries_unread, List.append_nil, hfirst, hcancelled]
            exact (List.append_nil _).symm
          · rw [visits_of_ne later hcancelled, List.flatMap_cons, List.filterMap_append, hfirst, ih]
            congr 1
            split
            · contradiction
            · rfl

/-! ## What is found and what fails -/

/-- Each visit adds its objects, or its failure. -/
theorem foldl_visit (crawler : Crawler) (cats : List Category) (st : CrawlState) :
    (cats.map fun c => Visit.read (crawler.answer c)).foldl CrawlState.visit st
      = { model := (cats.flatMap fun c =>
            match crawler.answer c with
            | .ok objects => objects.map c.own
            | .error _ => []).foldl Model.file st.model
          failures := st.failures ++ cats.filterMap fun c =>
            match crawler.answer c with
            | .ok _ => none
            | .error e => some (c, e.message) } := by
  induction cats generalizing st with
  | nil => simp
  | cons c rest ih =>
      rw [List.map_cons, List.foldl_cons, ih, List.flatMap_cons, List.foldl_append,
        List.filterMap_cons]
      have hvisit : st.visit (.read (crawler.answer c)) = st.after c (crawler.answer c) := rfl
      rw [hvisit]
      cases hanswer : crawler.answer c with
      | ok objects =>
          have hadd : st.model.addAll c objects = (objects.map c.own).foldl Model.file st.model := by
            unfold Model.addAll
            rw [List.foldl_map]
            simp only [Model.add_eq]
          simp only [CrawlState.after, hadd]
      | error e => simp [CrawlState.after]

/-- A crawl that goes on through all categories finds what is found, and fails if
something fails. -/
theorem finish_visits (crawler : Crawler) :
    ((Category.all.map fun c => Visit.read (crawler.answer c)).foldl CrawlState.visit
        crawler.beginning).finish
      = if crawler.failures = [] then .ok (crawler.found.foldl Model.file crawler.beginning.model)
        else .error (.crawl (.categories crawler.failures)) := by
  have hall : (Category.all.map fun c => Visit.read (crawler.answer c)).foldl CrawlState.visit
      crawler.beginning
      = { model := crawler.found.foldl Model.file crawler.beginning.model
          failures := crawler.failures } :=
    crawler.foldl_visit Category.all crawler.beginning
  rw [hall]
  unfold CrawlState.finish
  simp only [List.isEmpty_iff]

namespace ComesTo

variable {visits : List Visit} {outcome : Except Fault Model}

/-- Where a visit stops the crawl, it is cancelled. -/
theorem of_stops {v : Visit} (h : crawler.ComesTo visits outcome) (hv : v ∈ visits)
    (hstops : v.Stops) : outcome = .error .cancelled := by
  rcases h with ⟨-, houtcome⟩ | ⟨hnone, -⟩
  · exact houtcome
  · exact absurd hstops (hnone v hv)

/-- Where every category is read and none of the readings is cancelled, the crawl comes out as
what is found and what fails say. -/
theorem of_goesOn
    (h : crawler.ComesTo (Category.all.map fun c => .read (crawler.answer c)) outcome)
    (hgoes : crawler.GoesOn cancelled Category.all) :
    outcome = if crawler.failures = []
      then .ok (crawler.found.foldl Model.file crawler.beginning.model)
      else .error (.crawl (.categories crawler.failures)) := by
  rw [← crawler.finish_visits]
  rcases h with ⟨⟨v, hv, hstops⟩, -⟩ | ⟨-, houtcome⟩
  · obtain ⟨c, hc, rfl⟩ := List.mem_map.mp hv
    rcases hstops with hnone | hcancelled
    · cases hnone
    · exact absurd (Option.some.inj hcancelled) (goesOn_answer hgoes c hc)
  · exact houtcome

end ComesTo

end Crawler

/-! ## The course -/

/-- How a crawl comes out under a fresh task where the node `t` stands, and what it has asked
for. -/
structure CrawlCourse (crawler : Crawler) (task : Address) (t : Task) (tr : Tracker)
    (outcome : Except Fault Model) (asked : List Inquiry) (tr' : Tracker) : Prop where
  /-- A crawl goes on through all categories or stops at one. -/
  decided : crawler.GoesOn (tr.cancelledAt []) Category.all
    ∨ ∃ before c after, Category.all = before ++ c :: after
      ∧ crawler.GoesOn (tr.cancelledAt []) before
      ∧ (crawler.requestedBy (tr.cancelledAt []) before = true
        ∨ crawler.answer c = .error .cancelled)
  /-- It stops at a category before which cancellation is seen or whose reading answers that
  it was cancelled: whatever came before, the crawl is cancelled.  The categories before were
  asked for, that one only if cancellation was not seen before it, and no later one.  Those
  before show their own outcomes, that one is cancelled, and the later ones are cancelled
  without having been started. -/
  stopped : ∀ before c after, Category.all = before ++ c :: after →
    crawler.GoesOn (tr.cancelledAt []) before →
    (crawler.requestedBy (tr.cancelledAt []) before = true
      ∨ crawler.answer c = .error .cancelled) →
    outcome = .error .cancelled
    ∧ asked = before.flatMap crawler.inquiries
        ++ (if crawler.requestedBy (tr.cancelledAt []) before then [] else crawler.inquiries c)
    ∧ ∃ s shown k, tr'.Holds task s (t.children.map (·.state.told)
          ++ (shown ++ k :: after.map fun c => (TaskState.fresh c.label 1).stopped))
      ∧ s.status = .cancelled
      ∧ List.Forall₂ (fun c k => c.Shows (crawler.answer c) k) before shown
      ∧ k.name = c.label ∧ k.status = .cancelled
      ∧ (crawler.requestedBy (tr.cancelledAt []) before = true →
          k = (TaskState.fresh c.label 1).stopped)
  /-- When it goes on through all categories, all were asked for, and each shows its own
  outcome.  If none of them failed, the model holds exactly the objects found, and otherwise
  the crawl fails with those that failed. -/
  completed : crawler.GoesOn (tr.cancelledAt []) Category.all →
    asked = Category.all.flatMap crawler.inquiries
    ∧ (∃ s shown, tr'.Holds task s (t.children.map (·.state.told) ++ shown)
      ∧ s.status = Tracked.endStatus outcome
      ∧ List.Forall₂ (fun c k => c.Shows (crawler.answer c) k) Category.all shown)
    ∧ (crawler.failures = [] → ∃ m, outcome = .ok m ∧ m.dialect = crawler.dialect
        ∧ m.database = crawler.database ∧ m.HoldsExactly crawler.found)
    ∧ (crawler.failures ≠ [] → outcome = .error (.crawl (.categories crawler.failures)))
  /-- The queries sent are those of the readings, up to where cancellation is seen. -/
  queries : asked.filterMap Inquiry.query? = crawler.queries (tr.cancelledAt []) Category.all
  /-- Nothing else in the tree is touched. -/
  beyond : Confined task tr tr'

/-- What shows two parts of a list falls into two parts. -/
theorem forall₂_append_left {α β : Type} {R : α → β → Prop} {xs xs' : List α} {ys : List β}
    (h : List.Forall₂ R (xs ++ xs') ys) :
    ∃ zs zs', ys = zs ++ zs' ∧ List.Forall₂ R xs zs ∧ List.Forall₂ R xs' zs' := by
  have htake := List.forall₂_take xs.length h
  have hdrop := List.forall₂_drop xs.length h
  rw [List.take_left] at htake
  rw [List.drop_left] at hdrop
  exact ⟨_, _, (List.take_append_drop xs.length ys).symm, htake, hdrop⟩

/-- Visits that were all read show the outcomes of their readings. -/
theorem shown_of_read {crawler : Crawler} {cats : List Category} {kids : List TaskState}
    (h : List.Forall₂ Visit.ShownBy (cats.map fun c => .read (crawler.answer c)) kids) :
    List.Forall₂ (fun c k => c.Shows (crawler.answer c) k) cats kids :=
  List.forall₂_map_left_iff.mp h

theorem shown_of_unread {cats : List Category} {kids : List TaskState}
    (h : List.Forall₂ Visit.ShownBy (cats.map .unread) kids) :
    kids = cats.map fun c => (TaskState.fresh c.label 1).stopped := by
  have hshown := List.forall₂_map_left_iff.mp h
  clear h
  induction hshown with
  | nil => rfl
  | cons hk _ ih => exact congrArg₂ List.cons hk ih

/-- The task of a category at which a crawl stops is cancelled. -/
theorem Visit.ShownBy.of_stops {v : Visit} {k : TaskState} (h : v.ShownBy k) (hstops : v.Stops) :
    k.name = v.1.label ∧ k.status = .cancelled := by
  obtain ⟨c, outcome⟩ := v
  rcases hstops with hnone | hcancelled
  · obtain rfl : outcome = none := hnone
    obtain rfl : k = (TaskState.fresh c.label 1).stopped := h
    exact ⟨rfl, rfl⟩
  · obtain rfl : outcome = some (.error .cancelled) := hcancelled
    have hshows : c.Shows (.error .cancelled : Except Fault (List c.Object)) k := h
    exact ⟨hshows.name, hshows.status⟩

/-- Where a crawl stops, the subtasks fall into those read before, the one stopped at, and those
not read. -/
theorem shown_of_stops {crawler : Crawler} {before after : List Category} {c : Category}
    {requested : Bool} {kids : List TaskState}
    (h : List.Forall₂ Visit.ShownBy (before.map (fun c => .read (crawler.answer c))
      ++ .last c requested :: after.map .unread) kids) :
    ∃ shown k, kids = shown ++ k :: after.map (fun c => (TaskState.fresh c.label 1).stopped)
      ∧ List.Forall₂ (fun c k => c.Shows (crawler.answer c) k) before shown
      ∧ k.name = c.label ∧ k.status = .cancelled
      ∧ (requested = true → k = (TaskState.fresh c.label 1).stopped) := by
  obtain ⟨shown, rest, rfl, hread, hrest⟩ := forall₂_append_left h
  obtain ⟨k, later, hk, hlater, rfl⟩ := List.forall₂_cons_left_iff.mp hrest
  obtain rfl := shown_of_unread hlater
  obtain ⟨hname, hstatus⟩ := hk.of_stops (Visit.last_stops c requested)
  rw [Visit.last_fst] at hname
  refine ⟨shown, k, rfl, shown_of_read hread, hname, hstatus, ?_⟩
  rintro rfl
  exact hk

/-- Crawling under a fresh task takes the course that `CrawlCourse` describes. -/
theorem crawl_course (crawler : Crawler) {task : Address} {tr : Tracker} {t : Task}
    (hnode : tr.at? task = some t) (hcreated : t.status = .created) :
    let ended := (crawl crawler task).run.on tr
    CrawlCourse crawler task t tr ended.1 ((crawl crawler task).asked tr) ended.2 := by
  intro ended
  -- Nobody else acts while the crawl runs by itself.
  have hspares : Spares task (· = ·) := by
    rintro tr _ rfl
    exact Tracker.SameOn.refl _ tr
  have hquiet : Quiet (· = ·) := by
    rintro tr _ rfl
    rfl
  have hcrawl := crawl_ensures crawler [] hspares (Tracker.holds_of_at? hnode) hcreated
  obtain ⟨hbeyond, visits, hcomes, kids, hholds, hshown, -, hquietly⟩ := hcrawl.run fun _ => rfl
  obtain ⟨hvisits, hasked⟩ := hquietly hquiet
  rw [List.nil_append, List.nil_append] at hasked
  refine ⟨crawler.goesOn_or_stops _ _, ?stopped, ?completed, ?queries, hbeyond⟩
  case stopped =>
    intro before c after hall hbefore hstop
    rw [hall, Crawler.visits_of_stops after hbefore hstop] at hvisits
    rw [hvisits] at hcomes hshown hasked
    rw [crawler.flatMap_inquiries_stops] at hasked
    have houtcome := hcomes.of_stops (by simp)
      (Visit.last_stops c (crawler.requestedBy (tr.cancelledAt []) before))
    have hstatus : Tracked.endStatus ended.1 = .cancelled := by
      rw [houtcome]
      rfl
    obtain ⟨shown, k, rfl, hread, hlast⟩ := shown_of_stops hshown
    exact ⟨houtcome, hasked, _, shown, k, hholds, hstatus, hread, hlast⟩
  case completed =>
    intro hgoes
    rw [Crawler.visits_of_goesOn hgoes] at hvisits
    rw [hvisits] at hcomes hshown hasked
    rw [crawler.flatMap_inquiries_read] at hasked
    have houtcome := hcomes.of_goesOn hgoes
    refine ⟨hasked, ⟨_, kids, hholds, rfl, shown_of_read hshown⟩, fun hnone => ?_,
      fun hsome => ?_⟩
    · rw [if_pos hnone] at houtcome
      obtain ⟨hdialect, hdatabase⟩ :=
        Model.foldl_file_beside crawler.found crawler.beginning.model
      exact ⟨_, houtcome, hdialect, hdatabase, Model.holdsExactly_foldl _ _ _⟩
    · rw [if_neg hsome] at houtcome
      exact houtcome
  case queries =>
    rw [hasked, hvisits]
    exact crawler.queries_of_visits _ _

/-- A shop whose sequences cannot be read, and during whose views cancellation is requested. -/
def interruptedShop : Crawler :=
  Rehearsal.crawler
    { dialect := .mySql
      database := "shop"
      objects := fun
        | .table => [{ schema := "shop", name := "customers" }]
        | _ => []
      failures := [(.sequence, .crawl (.reported "no such table"))]
      cancelBefore := [.view] }

/-- Its crawl stops before the functions, which nobody asks for, and is cancelled although the
sequences failed. -/
theorem crawl_course_interrupted :
    let ended := (crawl interruptedShop []).run.on (.new "source")
    let asked := (crawl interruptedShop []).asked (.new "source")
    (Tracker.new "source").at? [] = some (.fresh "source" 1)
    ∧ (Task.fresh "source" 1).status = .created
    ∧ CrawlCourse interruptedShop [] (.fresh "source" 1) (.new "source") ended.1 asked ended.2
    ∧ interruptedShop.answer .sequence = .error (.crawl (.reported "no such table"))
    ∧ ended.1 = .error .cancelled
    ∧ asked = [.category .sequence, .category .table, .category .view] := by
  intro ended asked
  have hnode : (Tracker.new "source").at? [] = some (.fresh "source" 1) := rfl
  have hcourse := crawl_course interruptedShop hnode rfl
  have hbefore : interruptedShop.GoesOn false [.sequence, .table, .view] :=
    ⟨rfl, nofun, rfl, nofun, rfl, nofun, trivial⟩
  have hrequested : interruptedShop.requestedBy false [.sequence, .table, .view] = true := rfl
  obtain ⟨houtcome, hasked, -⟩ := hcourse.stopped [.sequence, .table, .view] .function
    [.procedure] rfl hbefore (Or.inl hrequested)
  exact ⟨hnode, rfl, hcourse, rfl, houtcome, hasked⟩

end Reconcile
