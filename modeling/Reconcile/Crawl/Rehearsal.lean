import Reconcile.Crawl.Crawler
/-!
# Rehearsals

A rehearsal is a crawl without a database: its objects are given, and so is what
happens on the way, which makes every course of a crawl repeatable.
-/

namespace Reconcile

structure Rehearsal where
  dialect : Dialect
  database : String := ""
  objects : (c : Category) → List c.Object
  /-- Categories that cannot be read, and why. -/
  failures : List (Category × Fault) := []
  /-- Categories before whose objects cancellation is requested. -/
  cancelBefore : List Category := []
  /-- Categories after whose objects cancellation is requested. -/
  cancelAfter : List Category := []
  /-- Categories before which the crawl pauses. -/
  pauseBefore : List Category := []

namespace Rehearsal

def read (r : Rehearsal) (c : Category) : Reading (List c.Object) := do
  Reading.pauseIf (r.pauseBefore.contains c)
  match r.failures.lookup c with
  | some e => Reading.fail e
  | none =>
      Reading.interruptIf (r.cancelBefore.contains c)
      let objects ← Reading.each pure (r.objects c).length (r.objects c)
      Reading.interruptIf (r.cancelAfter.contains c)
      return objects

def crawler (r : Rehearsal) : Crawler :=
  { dialect := r.dialect, database := r.database, read := r.read }

end Rehearsal

end Reconcile
