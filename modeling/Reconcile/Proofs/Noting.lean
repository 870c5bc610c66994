import Reconcile.Script.Annotation
import Reconcile.Proofs.Plans

/-!
# What scripting makes of an item

Scripting a comparison goes over its items several times: once to write their own
scripts, then once for each direction to note, position by position, what was left
out of the consolidated script.  The outcome is the same as treating each item by
itself: `Comparison.items_scripted` says that the items of the scripted comparison
are the items of the comparison under `Item.scripted`, in their order.
-/

namespace Reconcile

namespace Item

variable {c : Category}

/-- What stands in the way of the item's plan in one direction. -/
def planFault (s : Spelling) (d : Direction) (i : Item c) : Option ScriptFault :=
  match i.plan s d with
  | .ok _ => none
  | .error fault => some fault

/-- The item with a fault noted on it, unless it has one already. -/
def noted (i : Item c) : Option ScriptFault → Item c
  | none => i
  | some fault => { i with fault := some (i.fault.getD (Fault.script fault).message) }

/-- The item with its own scripts, and with what kept it out of either consolidated
script. -/
def scripted (s : Spelling) (i : Item c) : Item c :=
  ((i.annotated s).noted (i.planFault s .sourceToTarget)).noted
    (i.planFault s .targetToSource)

variable {s : Spelling} {d : Direction} {i : Item c} {fault : ScriptFault}

theorem planFault_eq_some : i.planFault s d = some fault ↔ i.plan s d = .error fault := by
  unfold planFault
  cases i.plan s d <;> simp

theorem planFault_eq_none : i.planFault s d = none ↔ ∃ p, i.plan s d = .ok p := by
  unfold planFault
  cases i.plan s d <;> simp

theorem plan_of_unchanged (h : i.state = .unchanged) : i.plan s d = .ok {} := by
  have hd : i.stateFor d = .unchanged := by
    cases d <;> simp [stateFor, h, DiffState.reversed]
  unfold plan
  rw [hd]

/-- A fault once set stays. -/
theorem noted_fault_isSome {fault? : Option ScriptFault} :
    (i.noted fault?).fault.isSome ↔ i.fault.isSome ∨ fault?.isSome := by
  cases fault? <;> simp [noted]

@[simp] theorem noted_key {fault? : Option ScriptFault} : (i.noted fault?).key = i.key := by
  cases fault? <;> rfl

@[simp] theorem noted_sourceCreate {fault? : Option ScriptFault} :
    (i.noted fault?).sourceCreate = i.sourceCreate := by
  cases fault? <;> rfl

@[simp] theorem noted_targetCreate {fault? : Option ScriptFault} :
    (i.noted fault?).targetCreate = i.targetCreate := by
  cases fault? <;> rfl

@[simp] theorem noted_alter {fault? : Option ScriptFault} :
    (i.noted fault?).alter = i.alter := by
  cases fault? <;> rfl

@[simp] theorem annotated_key : (i.annotated s).key = i.key := by
  unfold annotated
  split <;> rfl

/-! What scripting has written into an item takes no part in its plans. -/

theorem planFault_annotated {s' : Spelling} :
    (i.annotated s').planFault s d = i.planFault s d := by
  unfold annotated
  split <;> rfl

theorem planFault_noted {fault? : Option ScriptFault} :
    (i.noted fault?).planFault s d = i.planFault s d := by
  cases fault? <;> rfl

end Item

namespace Comparison

/-! ## Noting by position -/

section Positions

variable {c : Category}

theorem items_note (r : Comparison) (skipped : Skipped) (c : Category) :
    (r.note skipped).items c
      = if skipped.category = c then noteOn skipped (r.items c) else r.items c := by
  unfold note
  cases hcategory : skipped.category <;> cases c <;> rfl

/-- Notes for other categories pass a category by. -/
theorem items_foldl_note (skipped : List Skipped) (r : Comparison) (c : Category) :
    (skipped.foldl note r).items c
      = (skipped.filter (·.category = c)).foldl (fun items one => noteOn one items)
          (r.items c) := by
  induction skipped generalizing r with
  | nil => rfl
  | cons one rest ih =>
      rw [List.foldl_cons, ih, items_note, List.filter_cons]
      by_cases hone : one.category = c
      · simp [hone]
      · simp [hone]

/-- Notes concern items alone. -/
theorem foldl_note_beside (skipped : List Skipped) (r : Comparison) :
    (skipped.foldl note r).dialect = r.dialect
      ∧ (skipped.foldl note r).options = r.options
      ∧ ∀ d, (skipped.foldl note r).script d = r.script d := by
  induction skipped generalizing r with
  | nil => exact ⟨rfl, rfl, fun d => rfl⟩
  | cons one rest ih =>
      have hone : (r.note one).dialect = r.dialect ∧ (r.note one).options = r.options
          ∧ ∀ d, (r.note one).script d = r.script d := by
        unfold note
        cases one.category <;> exact ⟨rfl, rfl, fun d => by cases d <;> rfl⟩
      obtain ⟨hdialect, hoptions, hscript⟩ := ih (r.note one)
      rw [List.foldl_cons, hdialect, hoptions]
      exact ⟨hone.1, hone.2.1, fun d => (hscript d).trans (hone.2.2 d)⟩

/-- A note at the position behind `front` reaches the item that stands there. -/
theorem noteOn_append_cons (front rest : List (Item c)) (i : Item c) (key : Key)
    (fault : ScriptFault) (category : Category) :
    noteOn { category, position := front.length, key, fault } (front ++ i :: rest)
      = front ++ i.noted (some fault) :: rest := by
  unfold noteOn
  induction front with
  | nil => rfl
  | cons j front ih =>
      rw [List.cons_append, List.length_cons, List.modify_succ_cons]
      exact congrArg (j :: ·) ih

end Positions

variable {s : Spelling} {d : Direction} {r : Comparison} {c : Category}

/-- Items that cannot be planned, without the detour through the outcomes. -/
theorem skippedOf_eq (s : Spelling) (d : Direction) (r : Comparison) (c : Category) :
    r.skippedOf s d c
      = (r.items c).zipIdx.filterMap fun (i, n) => (i.planFault s d).map fun fault =>
          { category := c, position := n, key := i.key, fault } := by
  unfold skippedOf outcomes
  rw [List.filterMap_map, List.filterMap_filter]
  refine List.filterMap_congr fun (i, n) _ => ?_
  by_cases hstate : i.state = .unchanged
  · simp [hstate, Item.planFault, Item.plan_of_unchanged hstate]
  · cases hplan : i.plan s d <;> simp [hstate, Item.planFault, hplan]

theorem filter_skipped (s : Spelling) (d : Direction) (r : Comparison) (c : Category) :
    (r.skipped s d).filter (·.category = c) = r.skippedOf s d c := by
  have hsame : ∀ e, ∀ one ∈ r.skippedOf s d e, one.category = e := by
    intro e one hone
    rw [skippedOf_eq] at hone
    obtain ⟨⟨i, n⟩, -, hi⟩ := List.mem_filterMap.mp hone
    obtain ⟨fault, -, rfl⟩ := Option.map_eq_some_iff.mp hi
    rfl
  have hown : (r.skippedOf s d c).filter (·.category = c) = r.skippedOf s d c :=
    List.filter_eq_self.mpr fun one hone => by simp [hsame c one hone]
  have hother : ∀ e, e ≠ c → (r.skippedOf s d e).filter (·.category = c) = [] :=
    fun e he => List.filter_eq_nil_iff.mpr fun one hone => by simp [hsame e one hone, he]
  unfold skipped
  cases c <;> simp [Category.all, hown, hother]

/-- Noting all that were skipped treats each item by its own plan. -/
theorem foldl_noteOn (items front : List (Item c)) :
    ((items.zipIdx front.length).filterMap fun (i, n) =>
        (i.planFault s d).map fun fault =>
          ({ category := c, position := n, key := i.key, fault } : Skipped)).foldl
        (fun items one => noteOn one items) (front ++ items)
      = front ++ items.map fun i => i.noted (i.planFault s d) := by
  -- `front` are the items noted so far; the next position is its length.
  induction items generalizing front with
  | nil => rfl
  | cons i rest ih =>
      have hnext : front.length + 1 = (front ++ [i.noted (i.planFault s d)]).length := by
        simp
      have hrest := ih (front ++ [i.noted (i.planFault s d)])
      rw [List.append_assoc, List.append_assoc] at hrest
      rw [List.zipIdx_cons, List.filterMap_cons, List.map_cons]
      cases hplan : i.planFault s d with
      | none =>
          rw [hplan] at hrest
          simpa [hplan, Item.noted] using hrest
      | some fault =>
          rw [hplan] at hrest
          simp only [hplan, Option.map_some, List.foldl_cons, noteOn_append_cons]
          simpa using hrest

/-! ## Every item by itself -/

theorem items_noteSkipped (s : Spelling) (d : Direction) (r : Comparison) (c : Category) :
    (r.noteSkipped s d).items c = (r.items c).map fun i => i.noted (i.planFault s d) := by
  unfold noteSkipped
  rw [items_foldl_note, filter_skipped, skippedOf_eq]
  exact foldl_noteOn (r.items c) []

theorem length_le_size (r : Comparison) (c : Category) :
    (r.items c).length ≤ r.size - r.sizeBefore c := by
  cases c <;> simp [size, sizeBefore, Category.all] <;> omega

theorem mapFirst_of_length_le {α : Type} (f : α → α) {n : Nat} {xs : List α}
    (h : xs.length ≤ n) : mapFirst f n xs = xs.map f := by
  unfold mapFirst
  rw [List.take_of_length_le h, List.drop_of_length_le h, List.append_nil]

theorem items_annotated (s : Spelling) (r : Comparison) (c : Category) :
    (r.annotated s).items c = (r.items c).map (Item.annotated s) := by
  have hall := mapFirst_of_length_le (Item.annotated s) (r.length_le_size c)
  cases c <;> exact hall

theorem items_halfScripted (s : Spelling) (r : Comparison) (c : Category) :
    (r.halfScripted s).items c
      = (r.items c).map fun i => (i.annotated s).noted (i.planFault s .sourceToTarget) := by
  unfold halfScripted
  rw [items_noteSkipped, items_annotated, List.map_map]
  refine List.map_congr_left fun i _ => ?_
  rw [Function.comp_apply, Item.planFault_annotated]

/-- The consolidated scripts stand beside the items. -/
theorem items_with_scripts (r : Comparison) (forward backward : Option String) (c : Category) :
    { r with forward, backward : Comparison }.items c = r.items c := by
  cases c <;> rfl

/-- The items of the scripted comparison are those of the comparison, each scripted by
itself. -/
theorem items_scripted (s : Spelling) (r : Comparison) (c : Category) :
    (r.scripted s).items c = (r.items c).map (Item.scripted s) := by
  unfold scripted
  rw [items_with_scripts, items_noteSkipped, items_halfScripted, List.map_map]
  refine List.map_congr_left fun i _ => ?_
  rw [Function.comp_apply, Item.planFault_noted, Item.planFault_annotated]
  rfl

end Comparison

end Reconcile
