import Reconcile.Proofs.Noting
import Reconcile.Proofs.Phases

/-!
# What scripting changes in a comparison

Scripting writes into items and into the two consolidated scripts, and into nothing else.
`Comparison.inOrder` lists the items of all categories one after another, as scripting
goes through them: annotating the first `n` of a comparison is annotating the first `n`
of that list (`inOrder_annotateFirst`).

An item without what scripting adds to it is bare.  Comparisons with the same bare items
have the same statements (`SameBare.statements_eq`), so the consolidated scripts, which
are assembled after the items were scripted, are those of the comparison as it was
(`script_scripted`).
-/

namespace Reconcile

/-- An item as it was before anything was scripted. -/
def Item.bare {c : Category} (i : Item c) : Item c :=
  { i with sourceCreate := "", targetCreate := "", alter := "", fault := none }

namespace Item

variable {c : Category} {s : Spelling} {i : Item c}

theorem bare_annotated : (i.annotated s).bare = i.bare := by
  unfold annotated
  split <;> rfl

theorem bare_noted {fault? : Option ScriptFault} : (i.noted fault?).bare = i.bare := by
  cases fault? <;> rfl

end Item

namespace Comparison

variable {s : Spelling} {d : Direction} {r r' : Comparison}

/-! ## Items in their order -/

/-- All items in category order, each with its category. -/
def inOrder (r : Comparison) : List ((c : Category) × Item c) :=
  Category.all.flatMap fun c => (r.items c).map (Sigma.mk c)

/-- What is done to every item, whatever its category. -/
def onItem (f : (c : Category) → Item c → Item c) (x : (c : Category) × Item c) :
    (c : Category) × Item c :=
  ⟨x.1, f x.1 x.2⟩

theorem length_inOrder (r : Comparison) : r.inOrder.length = r.size := by
  simp [inOrder, size, Category.all]

theorem mapFirst_append {α : Type} (f : α → α) (n : Nat) (xs ys : List α) :
    mapFirst f n (xs ++ ys) = mapFirst f n xs ++ mapFirst f (n - xs.length) ys := by
  unfold mapFirst
  rw [List.take_append, List.drop_append, List.map_append]
  by_cases hn : n ≤ xs.length
  · rw [Nat.sub_eq_zero_of_le hn]
    simp
  · have hle : xs.length ≤ n := Nat.le_of_not_le hn
    rw [List.drop_of_length_le hle, List.take_of_length_le hle]
    simp

theorem mapFirst_map {α β : Type} (f : α → α) (g : β → β) (into : α → β) (n : Nat)
    (xs : List α) (h : ∀ x, g (into x) = into (f x)) :
    mapFirst g n (xs.map into) = (mapFirst f n xs).map into := by
  unfold mapFirst
  rw [← List.map_take, ← List.map_drop, List.map_map, List.map_append, List.map_map]
  congr 1
  exact List.map_congr_left fun x _ => h x

/-- Annotating the first items category by category is annotating the first of all items
in their order. -/
theorem inOrder_annotateFirst (s : Spelling) (n : Nat) (r : Comparison) :
    (r.annotateFirst s n).inOrder = mapFirst (onItem fun _ => Item.annotated s) n r.inOrder := by
  have hcategory : ∀ c, mapFirst (onItem fun _ => Item.annotated s) (n - r.sizeBefore c)
      ((r.items c).map (Sigma.mk c))
      = ((r.annotateFirst s n).items c).map (Sigma.mk c) := by
    intro c
    rw [mapFirst_map (Item.annotated s) _ (Sigma.mk c) _ _ fun x => rfl]
    cases c <;> rfl
  -- Of the list of all items, each category has the part behind the earlier categories.
  unfold inOrder
  simp only [Category.all, List.flatMap_cons, List.flatMap_nil, mapFirst_append,
    List.append_nil, List.length_map]
  simp only [← hcategory]
  simp [sizeBefore, Category.all, Nat.sub_sub, Nat.add_assoc]

theorem inOrder_scripted (s : Spelling) (r : Comparison) :
    (r.scripted s).inOrder = r.inOrder.map (onItem fun _ => Item.scripted s) := by
  unfold inOrder
  rw [List.map_flatMap]
  refine List.flatMap_congr fun c _ => ?_
  rw [items_scripted, List.map_map, List.map_map]
  rfl

/-! ## What scripting leaves alone -/

/-- The same comparison but for what scripting adds to it. -/
structure SameBare (r r' : Comparison) : Prop where
  dialect : r'.dialect = r.dialect
  options : r'.options = r.options
  items : ∀ c, (r'.items c).map Item.bare = (r.items c).map Item.bare

theorem sameBare_annotateFirst (s : Spelling) (n : Nat) (r : Comparison) :
    SameBare r (r.annotateFirst s n) := by
  have hfirst : ∀ c m, (mapFirst (Item.annotated s) m (r.items c)).map Item.bare
      = (r.items c).map Item.bare := by
    intro c m
    unfold mapFirst
    rw [List.map_append, List.map_map]
    conv_rhs => rw [← List.take_append_drop m (r.items c), List.map_append]
    congr 1
    exact List.map_congr_left fun i _ => Item.bare_annotated
  refine ⟨rfl, rfl, fun c => ?_⟩
  cases c <;> exact hfirst _ _

theorem SameBare.trans {r₁ : Comparison} (h : SameBare r r₁) (h' : SameBare r₁ r') :
    SameBare r r' :=
  ⟨h'.dialect.trans h.dialect, h'.options.trans h.options,
    fun c => (h'.items c).trans (h.items c)⟩

theorem sameBare_noteSkipped (s : Spelling) (d : Direction) (r : Comparison) :
    SameBare r (r.noteSkipped s d) := by
  obtain ⟨hdialect, hoptions, -⟩ := foldl_note_beside (r.skipped s d) r
  refine ⟨hdialect, hoptions, fun c => ?_⟩
  rw [items_noteSkipped, List.map_map]
  exact List.map_congr_left fun i _ => Item.bare_noted

theorem sameBare_annotated (s : Spelling) (r : Comparison) : SameBare r (r.annotated s) :=
  sameBare_annotateFirst s r.size r

theorem sameBare_halfScripted (s : Spelling) (r : Comparison) :
    SameBare r (r.halfScripted s) := by
  unfold halfScripted
  exact (sameBare_annotated s r).trans (sameBare_noteSkipped s .sourceToTarget _)

theorem SameBare.with_scripts (h : SameBare r r') (forward backward : Option String) :
    SameBare r { r' with forward, backward } := by
  refine ⟨h.dialect, h.options, fun c => ?_⟩
  rw [items_with_scripts]
  exact h.items c

theorem sameBare_scripted (s : Spelling) (r : Comparison) : SameBare r (r.scripted s) := by
  unfold scripted
  exact ((sameBare_halfScripted s r).trans
    (sameBare_noteSkipped s .targetToSource _)).with_scripts _ _

/-- The plans are made from the bare items. -/
theorem plans_bare (s : Spelling) (d : Direction) (r : Comparison) (c : Category) :
    r.plans s d c = (((r.items c).map Item.bare).filter (·.state != .unchanged)).filterMap
      fun i => (i.plan s d).toOption := by
  rw [plans_eq, List.filter_map, List.filterMap_map]
  rfl

theorem droppedTables_bare (d : Direction) (r : Comparison) :
    r.droppedTables d
      = (((r.items .table).map Item.bare).filter fun i => i.stateFor d == .deleted).map
          Item.key := by
  rw [List.filter_map, List.map_map]
  rfl

theorem danglingDrops_bare (s : Spelling) (d : Direction) (r : Comparison) :
    r.danglingDrops s d
      = (((r.items .table).map Item.bare).filter fun i => i.stateFor d != .deleted).flatMap
          fun i => match i.current d with
            | none => []
            | some t =>
                (t.foreignKeys.filter fun fk =>
                  (r.droppedTables d).contains fk.referencedKey).map (s.dropForeignKey t) := by
  rw [List.filter_map, List.flatMap_map]
  rfl

/-- Statements are made from the bare items. -/
theorem SameBare.statements_eq (h : SameBare r r') : r'.statements s d = r.statements s d := by
  have hplans : ∀ c, r'.plans s d c = r.plans s d c := by
    intro c
    rw [plans_bare, plans_bare, h.items]
  have hdropped : r'.droppedTables d = r.droppedTables d := by
    rw [droppedTables_bare, droppedTables_bare, h.items]
  have hdangling : r'.danglingDrops s d = r.danglingDrops s d := by
    rw [danglingDrops_bare, danglingDrops_bare, h.items, hdropped]
  unfold statements phases foreignKeyDrops gather
  simp only [hplans, hdangling]

theorem SameBare.consolidated_eq (h : SameBare r r') :
    r'.consolidated s d = r.consolidated s d :=
  congrArg s.render h.statements_eq

/-- Each consolidated script is that of the comparison as it was before any scripting. -/
theorem script_scripted (s : Spelling) (d : Direction) (r : Comparison) :
    (r.scripted s).script d = some (r.consolidated s d) := by
  unfold scripted
  cases d with
  | sourceToTarget => exact congrArg some (sameBare_annotated s r).consolidated_eq
  | targetToSource => exact congrArg some (sameBare_halfScripted s r).consolidated_eq

end Comparison

end Reconcile
