import Reconcile.Proofs.Accounting
import Reconcile.Proofs.Classification

/-!
# Applying a comparison

A comparison says how to make the target look like the source: store the source's
object where it was added or modified, remove what was deleted, and leave alone what is
unchanged (`Model.patched`).  Comparing the source with the target so patched finds
nothing left to do (`Settles`), which is what makes it safe to compare again.

An object that was stored is compared with itself, so every equality has to be
reflexive; for tables that takes names that are distinct, since of two columns of one
name the first would be compared with the second.  An object that was left alone is
compared as before.  The target's own names never matter.
-/

namespace Reconcile

/-! ## Equalities are reflexive -/

theorem sameFolded_self (text : String) : Text.sameFolded text text = true :=
  BEq.rfl

theorem columnsEqual_self (o : Options) (c : Column) : columnsEqual o c c = true := by
  simp [columnsEqual, sameFolded_self]

theorem indexesEqual_self (i : Index) : indexesEqual i i = true := by
  simp [indexesEqual]

theorem foreignKeysEqual_self (o : Options) (fk : ForeignKey) :
    foreignKeysEqual o fk fk = true := by
  simp [foreignKeysEqual]

theorem extensionsEqual_self (o : Options) (x : TableExtension) :
    extensionsEqual o x x = true := by
  cases x with
  | none => rfl
  | mySql engine version characterSet collation =>
      simp [extensionsEqual, sameFolded_self]

theorem sequencesEqual_self (q : Sequence) : sequencesEqual q q = true := by
  simp [sequencesEqual, sameFolded_self]

theorem routinesEqual_self (r : Routine) : routinesEqual r r = true := by
  simp [routinesEqual, Text.sameDefinition]

/-- Members without a repeated name do not differ from themselves. -/
theorem MemberDiff.unchanged_of_mem_between_self {α : Type} {nameOf : α → String}
    {equal : α → α → Bool} {xs : List α} (hnames : (xs.map nameOf).Nodup)
    (hself : ∀ x, equal x x = true) {m : MemberDiff α}
    (hm : m ∈ between nameOf equal xs xs) : m.state = .unchanged := by
  rcases (mem_between hnames).mp hm with ⟨x, hx, y, hy, hname, rfl⟩ | ⟨x, hx, hnone, -⟩
    | ⟨y, hy, hnone, -⟩
  · obtain rfl := List.inj_on_of_nodup_map hnames hx hy hname
    simp [DiffState.classify, hself]
  · exact absurd rfl (hnone x hx)
  · exact absurd rfl (hnone y hy)

theorem TableDiff.between_self_isUnchanged (o : Options) {t : Table}
    (h : t.DistinctNames) : (between o t t).isUnchanged = true := by
  refine isUnchanged_iff.mpr ⟨?columns, ?indexes, ?foreignKeys, ?options⟩
  case columns =>
      intro m hm
      exact MemberDiff.unchanged_of_mem_between_self h.columns (columnsEqual_self o) hm
  case indexes =>
      intro m hm
      exact MemberDiff.unchanged_of_mem_between_self h.indexes indexesEqual_self hm
  case foreignKeys =>
      intro m hm
      exact MemberDiff.unchanged_of_mem_between_self h.foreignKeys
        (foreignKeysEqual_self o) hm
  case options =>
      change (!extensionsEqual o t.extension t.extension) = false
      rw [extensionsEqual_self]
      rfl

theorem Category.equal_self (o : Options) {c : Category} {x : c.Object}
    (h : c.Distinct x) : c.equal o x x = true := by
  cases c with
  | sequence => exact sequencesEqual_self x
  | table => exact TableDiff.between_self_isUnchanged o h
  | view => exact (BEq.rfl : Text.sameDefinition x.definition x.definition = true)
  | function => exact routinesEqual_self x
  | procedure => exact routinesEqual_self x

/-- Two sides that are both absent, or both there and equal. -/
def Category.SameSides (o : Options) (c : Category) (source target : Option c.Object) : Prop :=
  Option.Rel (fun x y => c.equal o x y = true) source target

namespace Category.SameSides

variable {o : Options} {c : Category} {target : Option c.Object}

theorem eq_none (h : c.SameSides o none target) : target = none := by
  cases h
  rfl

theorem exists_equal {x : c.Object} (h : c.SameSides o (some x) target) :
    ∃ y, target = some y ∧ c.equal o x y = true := by
  cases h with
  | some hequal => exact ⟨_, rfl, hequal⟩

end Category.SameSides

/-! ## Patching -/

namespace Item

variable {c : Category}

/-- A collection in which the item's object is as in the source. -/
def patch (m : Keyed c.Object) (i : Item c) : Keyed c.Object :=
  match i.state, i.source with
  | .added, some x => m.insert i.key x
  | .modified, some x => m.insert i.key x
  | .deleted, _ => m.erase i.key
  | _, _ => m

/-- What stands under the item's key once it is patched, where `found` stood before. -/
def left (i : Item c) (found : Option c.Object) : Option c.Object :=
  match i.state, i.source with
  | .added, some x => some x
  | .modified, some x => some x
  | .deleted, _ => none
  | _, _ => found

variable {m : Keyed c.Object} {items : List (Item c)}

theorem ascending_patch (h : m.Ascending) (i : Item c) : (i.patch m).Ascending := by
  unfold patch
  split
  · exact h.insert _ _
  · exact h.insert _ _
  · exact h.erase _
  · exact h

/-- A patch changes what is found under the item's key alone. -/
theorem find?_patch (h : m.Ascending) (i : Item c) (k : Key) :
    (i.patch m).find? k = if i.key = k then i.left (m.find? k) else m.find? k := by
  unfold patch left
  split
  · exact Keyed.find?_insert _ _ _ _
  · exact Keyed.find?_insert _ _ _ _
  · exact h.find?_erase _ _
  · split <;> rfl

theorem ascending_foldl_patch (h : m.Ascending) (items : List (Item c)) :
    (items.foldl patch m).Ascending := by
  induction items generalizing m with
  | nil => exact h
  | cons i rest ih => exact ih (ascending_patch h i)

theorem find?_foldl_patch_of_notMem (h : m.Ascending) {k : Key}
    (hk : k ∉ items.map Item.key) : (items.foldl patch m).find? k = m.find? k := by
  induction items generalizing m with
  | nil => rfl
  | cons i rest ih =>
      rw [List.map_cons, List.mem_cons, not_or] at hk
      have hother : ¬ i.key = k := fun hik => hk.1 hik.symm
      rw [List.foldl_cons, ih (ascending_patch h i) hk.2, find?_patch h, if_neg hother]

/-- Where no key is listed twice, a key is left as its one item says. -/
theorem find?_foldl_patch (h : m.Ascending) (hkeys : (items.map Item.key).Nodup)
    {i : Item c} (hi : i ∈ items) :
    (items.foldl patch m).find? i.key = i.left (m.find? i.key) := by
  induction items generalizing m with
  | nil => cases hi
  | cons j rest ih =>
      obtain ⟨hj, hrest⟩ := List.nodup_cons.mp hkeys
      rw [List.foldl_cons]
      rcases List.mem_cons.mp hi with rfl | hi
      · rw [find?_foldl_patch_of_notMem (ascending_patch h i) hj, find?_patch h, if_pos rfl]
      · have hother : ¬ j.key = i.key := by
          intro hji
          exact hj (hji ▸ List.mem_map_of_mem hi)
        rw [ih (ascending_patch h j) hrest hi, find?_patch h, if_neg hother]

/-- What an item of two sides leaves equals the source's side: it is that side, or was
found equal to it. -/
theorem left_ofSides (o : Options) (key : Key) {source target : Option c.Object}
    (hsource : ∀ x, source = some x → c.Distinct x) :
    c.SameSides o source ((ofSides o key source target).left target) := by
  cases source with
  | none => cases target <;> exact Option.Rel.none
  | some x =>
      have hself : c.equal o x x = true := Category.equal_self o (hsource x rfl)
      cases target with
      | none => exact Option.Rel.some hself
      | some y =>
          cases hequal : c.equal o x y with
          | true =>
              have hkept : (ofSides o key (some x) (some y)).left (some y) = some y := by
                simp [left, ofSides, DiffState.classify, hequal]
              rw [hkept]
              exact Option.Rel.some hequal
          | false =>
              have hstored : (ofSides o key (some x) (some y)).left (some y) = some x := by
                simp [left, ofSides, DiffState.classify, hequal]
              rw [hstored]
              exact Option.Rel.some hself

end Item

namespace Keyed

variable {c : Category} {o : Options} {source target : Keyed c.Object}

/-- Under every key the patched target has what the source has there, up to equality. -/
theorem find?_patched (hs : source.Ascending) (ht : target.Ascending)
    (hnames : ∀ k x, source.find? k = some x → c.Distinct x) (k : Key) :
    c.SameSides o (source.find? k)
      (((itemsBetween o c source target).foldl Item.patch target).find? k) := by
  have hkeys := Item.map_key_itemsBetween o source target
  have hnodup : ((itemsBetween o c source target).map Item.key).Nodup := by
    rw [hkeys]
    exact (ascending_unionKeys hs target).nodup
  by_cases hk : k ∈ source.unionKeys target
  · have hleft := Item.find?_foldl_patch ht hnodup (List.mem_map_of_mem hk)
    have hfound : ((itemsBetween o c source target).foldl Item.patch target).find? k
        = (Item.ofSides o k (source.find? k) (target.find? k)).left (target.find? k) :=
      hleft
    rw [hfound]
    exact Item.left_ofSides o k (hnames k)
  · have hnone : source.find? k = none ∧ target.find? k = none := by
      rw [mem_unionKeys, not_or] at hk
      exact ⟨find?_eq_none.mpr hk.1, find?_eq_none.mpr hk.2⟩
    rw [Item.find?_foldl_patch_of_notMem ht (by rwa [hkeys]), hnone.1, hnone.2]
    exact Option.Rel.none

variable (hequal : ∀ k, c.SameSides o (source.find? k) (target.find? k))
include hequal

/-- A collection that has nothing under other keys adds none to the list of keys. -/
theorem unionKeys_of_equal (hs : source.Ascending) :
    source.unionKeys target = source.keys := by
  refine (ascending_unionKeys hs target).eq_of_mem_iff hs fun k => ?_
  rw [mem_unionKeys]
  refine ⟨?_, Or.inl⟩
  rintro (hk | hk)
  · exact hk
  · by_contra hlacking
    have hrel := hequal k
    rw [find?_eq_none.mpr hlacking] at hrel
    exact find?_eq_none.mp hrel.eq_none hk

theorem unchanged_of_equal (hs : source.Ascending) {i : Item c}
    (hi : i ∈ itemsBetween o c source target) : i.state = .unchanged := by
  obtain ⟨k, hk, rfl⟩ := List.mem_map.mp hi
  rw [unionKeys_of_equal hequal hs] at hk
  have hrel := hequal k
  change DiffState.classify (c.equal o) (source.find? k) (target.find? k) = .unchanged
  cases hsource : source.find? k with
  | none => exact absurd hk (find?_eq_none.mp hsource)
  | some x =>
      rw [hsource] at hrel
      obtain ⟨y, htarget, hxy⟩ := hrel.exists_equal
      rw [htarget, DiffState.classify, if_pos hxy]

end Keyed

/-! ## Models -/

namespace Model

/-- The model with the source's side of every item that differs. -/
def patched (m : Model) (r : Comparison) : Model :=
  let objects := fun (c : Category) => (r.items c).foldl Item.patch (m.objects c)
  { m with
    sequences := objects .sequence
    tables := objects .table
    views := objects .view
    functions := objects .function
    procedures := objects .procedure }

theorem objects_patched (m : Model) (r : Comparison) (c : Category) :
    (m.patched r).objects c = (r.items c).foldl Item.patch (m.objects c) := by
  cases c <;> rfl

theorem Ordered.patched {m : Model} (h : m.Ordered) (r : Comparison) :
    (m.patched r).Ordered := by
  intro c
  rw [objects_patched]
  exact Item.ascending_foldl_patch (h c) (r.items c)

end Model

namespace Comparison

/-- Nothing is left to do.  There is one item for each object of the model, in their
order, none of them differs, and whatever spelling writes the consolidated scripts, there
is nothing in them. -/
structure Settles (a : Model) (r : Comparison) : Prop where
  objects : ∀ c, (r.items c).map (fun i => (i.key, i.source))
    = (a.objects c).map fun entry => (entry.1, some entry.2)
  unchanged : ∀ c, ∀ i ∈ r.items c, i.state = .unchanged
  consolidated : ∀ s d, r.consolidated s d = ""
  scripts : ∀ s, ∃ r', ScriptsTo s r r' ∧ ∀ d, r'.script d = some ""

variable {a b : Model} {r : Comparison}

/-- A comparison in which nothing differs calls for no statement. -/
theorem statements_of_unchanged (h : ∀ c, ∀ i ∈ r.items c, i.state = .unchanged)
    (s : Spelling) (d : Direction) : r.statements s d = [] := by
  have hgather : ∀ part c, part ({} : Plan) = [] → r.gather s d part c = [] := by
    intro part c hpart
    refine gather_eq_nil part fun i hi p hp => ?_
    rw [Item.plan_of_unchanged (h c i hi)] at hp
    cases hp
    exact hpart
  have hdangling : r.danglingDrops s d = [] := by
    refine List.eq_nil_iff_forall_not_mem.mpr fun text htext => ?_
    obtain ⟨-, -, -, t, -, fk, -, hgone, -⟩ := mem_danglingDrops.mp htext
    obtain ⟨i, hi, hdeleted, -⟩ := mem_droppedTables.mp hgone
    exact Item.differs_of_deleted hdeleted (h .table i hi)
  unfold statements phases foreignKeyDrops
  simp only [hgather, hdangling]
  rfl

/-- Once the target is patched, there is nothing left to do. -/
theorem between_patched_settles (o : Options) (ha : a.Ordered) (hb : b.Ordered)
    (hnames : a.DistinctNames) : (between o a (b.patched (between o a b))).Settles a := by
  let patched := b.patched (between o a b)
  have hequal : ∀ (c : Category) k,
      c.SameSides o ((a.objects c).find? k) ((patched.objects c).find? k) := by
    intro c k
    rw [Model.objects_patched, items_between]
    exact Keyed.find?_patched (ha c) (hb c) (fun _ _ hx => hnames.find? hx) k
  have hunchanged : ∀ c, ∀ i ∈ (between o a patched).items c, i.state = .unchanged := by
    intro c i hi
    rw [items_between] at hi
    exact Keyed.unchanged_of_equal (hequal c) (ha c) hi
  have hempty : ∀ s d, (between o a patched).consolidated s d = "" := by
    intro s d
    unfold consolidated
    rw [statements_of_unchanged hunchanged s d]
    rfl
  refine ⟨?objects, hunchanged, hempty, ?scripts⟩
  case objects =>
      intro c
      rw [items_between]
      unfold itemsBetween
      rw [List.map_map, Keyed.unionKeys_of_equal (hequal c) (ha c)]
      exact (ha c).map_find?_keys
  case scripts =>
      intro s
      refine ⟨_, scriptsTo_scripted s _, fun d => ?_⟩
      rw [script_scripted, hempty]

/-- With the target patched by what comparing came to, comparing again comes to a
comparison in which nothing is left to do. -/
theorem compare_patched_settles (o : Options) (ha : a.Ordered) (hb : b.Ordered)
    (hnames : a.DistinctNames) (hdialect : a.dialect = b.dialect) :
    ∃ r, ComparesTo o a b r
      ∧ ∃ again, ComparesTo o a (b.patched r) again ∧ again.Settles a := by
  let r := between o a b
  have hpatched : a.dialect = (b.patched r).dialect := hdialect
  exact ⟨r, comparesTo_between o hdialect, between o a (b.patched r),
    comparesTo_between o hpatched, between_patched_settles o ha hb hnames⟩

/-- Bringing the customers back leaves nothing to do. -/
theorem compare_patched_settles_shop :
    shop.Ordered ∧ anonymousShop.Ordered ∧ shop.DistinctNames
    ∧ shop.dialect = anonymousShop.dialect
    ∧ ∃ r, ComparesTo {} shop anonymousShop r
      ∧ ∃ again, ComparesTo {} shop (anonymousShop.patched r) again
        ∧ again.Settles shop := by
  have hshop : shop.Ordered := by decide
  have hanonymous : anonymousShop.Ordered := by decide
  have hnames : shop.DistinctNames := by decide
  exact ⟨hshop, hanonymous, hnames, rfl,
    compare_patched_settles {} hshop hanonymous hnames rfl⟩

end Comparison

end Reconcile
