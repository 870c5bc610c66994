import Reconcile.Crawl.Reading
import Reconcile.Schema.Model
/-!
# Crawling a database

A crawler reads one database category by category.  `crawl` drives it under a task
with a subtask for each category: a category that fails does not keep the later ones
from being read, but it keeps the crawl from succeeding; once cancellation is seen,
no later category is read and no model comes out.
-/

namespace Reconcile

structure Crawler where
  dialect : Dialect
  database : String
  /-- How the objects of a category are read. -/
  read : (c : Category) → Reading (List c.Object)

/-- The most pauses in one crawl. -/
def Crawler.pauses (crawler : Crawler) : Nat :=
  (Category.all.map fun c => (crawler.read c).pauses).foldr (· + ·) 0

/-- The queries of a crawl that nothing but its own readings interrupts, category by
category until cancellation is seen. -/
def Crawler.queries (crawler : Crawler) : Bool → List Category → List Query
  | true, _ => []
  | false, [] => []
  | false, c :: later =>
      let r := crawler.read c
      r.queries false ++
        match r.answer false with
        | .error .cancelled => []
        | _ => crawler.queries (r.endsCancelled false) later

/-- Has a category read under its task. -/
def Crawler.reading (crawler : Crawler) (c : Category) (task : Address) :
    Activity (List c.Object) :=
  .ask (.category c) ((crawler.read c).under task)

/-- Files objects of one category one after another. -/
def Model.addAll (m : Model) (c : Category) (objects : List c.Object) : Model :=
  objects.foldl (fun m x => m.add c x) m

/-- A crawl on its way: what was found and which categories failed, with what text. -/
structure CrawlState where
  model : Model
  failures : List (Category × String) := []

/-- What comes after the reading of a category came out so. -/
def CrawlState.after (s : CrawlState) (c : Category) :
    Except Fault (List c.Object) → CrawlState
  | .ok objects => { s with model := s.model.addAll c objects }
  | .error e => { s with failures := s.failures ++ [(c, e.message)] }

/-- Reads the categories to come.  `all` are the tasks of all categories, of which those
that have not ended are marked cancelled when the crawl stops. -/
def readCategories (crawler : Crawler) (all : List Address) :
    List (Category × Address) → CrawlState → Activity CrawlState
  | [], s => pure s
  | (c, task) :: later, s => do
      if ← Activity.isCancelled then stop
      else
        Activity.lift (Tracked.start task)
        ((crawler.reading c task).settling task).andThen fun
          | .error .cancelled => stop
          | outcome => readCategories crawler all later (s.after c outcome)
where
  stop : Activity CrawlState := do
    Activity.lift (Tracked.cancelUnfinished all)
    Activity.fail .cancelled

/-- Reads a database into a model. -/
def crawl (crawler : Crawler) (task : Address) : Activity Model := do
  Activity.lift (Tracked.start task)
  Activity.settling task do
    let tasks ← Activity.lift (Tracked.addCategories task)
    let s ← readCategories crawler (tasks.map Prod.snd) tasks
      { model := { dialect := crawler.dialect, database := crawler.database } }
    if s.failures.isEmpty then return s.model
    else Activity.fail (.crawl (.categories s.failures))

end Reconcile
