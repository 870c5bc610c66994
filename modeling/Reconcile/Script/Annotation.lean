import Reconcile.Script.Consolidated
/-!
# Annotating a comparison with its scripts

Every item gets the scripts that create its two sides and the one that alters the
target, or the fault that keeps them from being written; then the comparison gets
its two consolidated scripts, each from the comparison as it has become by then.  An
item left out of either of those has the reason noted as well, unless it has one
already.  The work asks before every item and once before the consolidated scripts
whether to stop; items scripted until then stay so.
-/

namespace Reconcile

/-- The scripts of an item: creation of its source, of its target, alteration. -/
def Item.scripts {c : Category} (s : Spelling) (i : Item c) :
    Except ScriptFault (String × String × String) := do
  let creation := fun (o : Option c.Object) =>
    match o with
    | some object => (c.planCreate s object).map fun p => s.render p.statements
    | none => .ok ""
  let source ← creation i.source
  let target ← creation i.target
  let alter ← (i.plan s .sourceToTarget).map fun p => s.render p.statements
  return (source, target, alter)

/-- The item with its scripts, or with the reason why it has none. -/
def Item.annotated {c : Category} (s : Spelling) (i : Item c) : Item c :=
  match i.scripts s with
  | .ok (source, target, alter) =>
      { i with sourceCreate := source, targetCreate := target, alter := alter }
  | .error fault => { i with fault := some (Fault.script fault).message }

/-- What is reported of an item that cannot be scripted. -/
def Item.complaint? {c : Category} (s : Spelling) (i : Item c) : Option String :=
  match i.scripts s with
  | .ok _ => none
  | .error fault => some s!"{c.label} {i.key.shown}: {(Fault.script fault).message}"

/-- Applies `f` to the first `n` members. -/
def mapFirst {α : Type} (f : α → α) (n : Nat) (xs : List α) : List α :=
  (xs.take n).map f ++ xs.drop n

namespace Comparison

/-- Number of items in all categories. -/
def size (r : Comparison) : Nat :=
  (Category.all.map fun c => (r.items c).length).foldr (· + ·) 0

/-- Number of items in the categories before `c`. -/
def sizeBefore (r : Comparison) (c : Category) : Nat :=
  ((Category.all.takeWhile (· != c)).map fun c => (r.items c).length).foldr (· + ·) 0

/-- The complaints item by item, in category order. -/
def complaints (s : Spelling) (r : Comparison) : List (Option String) :=
  Category.all.flatMap fun c => (r.items c).map (Item.complaint? s)

/-- The comparison with its first `n` items annotated, in category order. -/
def annotateFirst (s : Spelling) (n : Nat) (r : Comparison) : Comparison :=
  let first := fun (c : Category) => mapFirst (Item.annotated (c := c) s) (n - r.sizeBefore c)
  { r with
    sequences := first .sequence r.sequences
    tables := first .table r.tables
    views := first .view r.views
    functions := first .function r.functions
    procedures := first .procedure r.procedures }

/-- Notes on an item why it was left out, unless it has a fault already. -/
def noteOn {c : Category} (skipped : Skipped) (items : List (Item c)) : List (Item c) :=
  items.modify skipped.position fun i =>
    { i with fault := some (i.fault.getD skipped.message) }

def note (r : Comparison) (skipped : Skipped) : Comparison :=
  match skipped.category with
  | .sequence => { r with sequences := noteOn skipped r.sequences }
  | .table => { r with tables := noteOn skipped r.tables }
  | .view => { r with views := noteOn skipped r.views }
  | .function => { r with functions := noteOn skipped r.functions }
  | .procedure => { r with procedures := noteOn skipped r.procedures }

/-- Notes what the consolidated script in one direction leaves out. -/
def noteSkipped (s : Spelling) (d : Direction) (r : Comparison) : Comparison :=
  (r.skipped s d).foldl note r

/-- The comparison once all its items are annotated. -/
def annotated (s : Spelling) (r : Comparison) : Comparison :=
  r.annotateFirst s r.size

/-- The comparison once the script on the target is assembled, too. -/
def halfScripted (s : Spelling) (r : Comparison) : Comparison :=
  (r.annotated s).noteSkipped s .sourceToTarget

/-- The comparison with all that scripting adds to it. -/
def scripted (s : Spelling) (r : Comparison) : Comparison :=
  { (r.halfScripted s).noteSkipped s .targetToSource with
    forward := some ((r.annotated s).consolidated s .sourceToTarget)
    backward := some ((r.halfScripted s).consolidated s .targetToSource) }

end Comparison

/-! ## Scripting under a task -/

namespace Tracked

/-- Reports items one by one, asking before each, and answers how many were reported
before it was told to stop. -/
def reportItems (task : Address) (total : Nat) (polls : Polls) (done : Nat) :
    List (Option String) → Tracked (Nat × Except Fault Unit)
  | [] => return (done, .ok ())
  | complaint :: rest => do
      if polls done then return (done, .error .cancelled)
      match complaint with
      | some text => setMessage task text
      | none => pure ()
      setProgress task (done + 1) total
      reportItems task total polls (done + 1) rest

/-- Reports the items that a consolidated script leaves out. -/
def reportSkipped (task : Address) (skipped : List Skipped) : Tracked Unit :=
  skipped.forM fun i => setMessage task s!"{i.key.shown} left out: {i.message}"

end Tracked

/-- Scripts a comparison under a task, with one subtask for the items and one for
the consolidated scripts.  Answers the comparison as far as it was scripted, and the
outcome. -/
def scriptComparison (s : Spelling) (r : Comparison) (task : Address) (polls : Polls) :
    StateM Tracker (Comparison × Except Fault Unit) := do
  let start : Tracked (Address × Address) := do
    let items ← Tracked.addChild task "items" 3
    let full ← Tracked.addChild task "full scripts" 1
    Tracked.start items
    return (items, full)
  match ← (Tracked.start task).run with
  | .error e => return (r, .error e)
  | .ok () =>
      match ← start.run with
      | .error e => return (r, ← (Tracked.settle task (.error e)).run)
      | .ok (items, full) =>
          let (done, outcome) ←
            match ← (Tracked.reportItems items r.size polls 0 (r.complaints s)).run with
            | .ok result => pure result
            | .error e => pure (0, .error e)
          match ← (Tracked.settle items outcome).run with
          | .error e =>
              Tracked.attempt full .markCancelled |>.run |> discard
              return (r.annotateFirst s done, ← (Tracked.settle task (.error e)).run)
          | .ok () =>
              let consolidate : Tracked Unit := do
                Tracked.start full
                Tracked.settling full do
                  if polls r.size then throw .cancelled
                  Tracked.reportSkipped full ((r.annotated s).skipped s .sourceToTarget)
                  Tracked.setPercentage full 50
                  Tracked.reportSkipped full ((r.halfScripted s).skipped s .targetToSource)
              let outcome ← consolidate.run
              let result := match outcome with
                | .ok () => r.scripted s
                | .error _ => r.annotated s
              return (result, ← (Tracked.settle task outcome).run)

end Reconcile
