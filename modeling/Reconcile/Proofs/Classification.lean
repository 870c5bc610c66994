import Reconcile.Proofs.Mirror
import Reconcile.Proofs.Undisturbed

/-!
# What a comparison lists

A comparison pairs twice, objects by their keys and inside a table members by their
names, and either time the same rule gives the state of a pair (`DiffState.Rules`).  The
two listings differ in their order: objects stand by ascending key, members as the source
has them and then as the target has those that the source lacks.

`Comparison.Classifies` says all of it about a comparison, without the functions that
compute one; `compare_classifies` says that comparing answers such a comparison.
-/

namespace Reconcile

/-! ## The rule -/

/-- A state as it follows from two sides, of which at least one is there. -/
structure DiffState.Rules {α : Type} (equal : α → α → Bool) (source target : Option α)
    (state : DiffState) : Prop where
  added : state = .added ↔ source.isSome ∧ target = none
  deleted : state = .deleted ↔ source = none ∧ target.isSome
  unchanged : state = .unchanged ↔
    ∃ x y, source = some x ∧ target = some y ∧ equal x y = true
  modified : state = .modified ↔
    ∃ x y, source = some x ∧ target = some y ∧ equal x y = false

theorem DiffState.classify_rules {α : Type} (equal : α → α → Bool)
    (source target : Option α) (h : source.isSome ∨ target.isSome) :
    Rules equal source target (classify equal source target) := by
  cases source with
  | none =>
      cases target with
      | none => simp at h
      | some y => constructor <;> simp [classify]
  | some x =>
      cases target with
      | none => constructor <;> simp [classify]
      | some y =>
          cases hequal : equal x y with
          | true => constructor <;> simp [classify, hequal]
          | false => constructor <;> simp [classify, hequal]

/-! ## Members -/

namespace MemberDiff

variable {α : Type}

/-- A list of differences that holds every name of either side once, the source's names
in the source's order and then those of the target alone in the target's order, each with
the members of that name. -/
structure Lists (nameOf : α → String) (equal : α → α → Bool) (source target : List α)
    (ms : List (MemberDiff α)) : Prop where
  names : ms.map MemberDiff.name
    = source.map nameOf ++ (target.map nameOf).filter fun name => name ∉ source.map nameOf
  once : (ms.map MemberDiff.name).Nodup
  source : ∀ m ∈ ms, ∀ x, m.source = some x ↔ x ∈ source ∧ nameOf x = m.name
  target : ∀ m ∈ ms, ∀ y, m.target = some y ↔ y ∈ target ∧ nameOf y = m.name
  state : ∀ m ∈ ms, DiffState.Rules equal m.source m.target m.state

variable {nameOf : α → String} {equal : α → α → Bool} {source target : List α}
  {m : MemberDiff α}

theorem map_name_between (nameOf : α → String) (equal : α → α → Bool)
    (source target : List α) :
    (between nameOf equal source target).map MemberDiff.name
      = source.map nameOf
        ++ (target.map nameOf).filter fun name => name ∉ source.map nameOf := by
  unfold between
  rw [List.map_append, List.map_map, List.map_map, List.filter_map]
  have hsource : (MemberDiff.name ∘ ofSource nameOf equal target) = nameOf := rfl
  have htarget : (MemberDiff.name ∘ ofTarget nameOf) = nameOf := rfl
  have hlacking : (fun y => !source.any (nameOf · == nameOf y))
      = (fun name => decide (name ∉ source.map nameOf)) ∘ nameOf := by
    funext y
    rw [Bool.eq_iff_iff]
    simp
  rw [hsource, htarget, hlacking]

/-- The sides of a difference are found under its name, and its state follows from them. -/
theorem sides_of_mem_between (hs : (source.map nameOf).Nodup)
    (ht : (target.map nameOf).Nodup) (hm : m ∈ between nameOf equal source target) :
    m.source = lastNamed nameOf m.name source ∧ m.target = lastNamed nameOf m.name target
      ∧ (m.source.isSome ∨ m.target.isSome)
      ∧ m.state = .classify equal m.source m.target := by
  rcases List.mem_append.mp hm with hm | hm
  · obtain ⟨x, hx, rfl⟩ := List.mem_map.mp hm
    have hown : lastNamed nameOf (nameOf x) source = some x :=
      (lastNamed_eq_some hs).mpr ⟨hx, rfl⟩
    exact ⟨hown.symm, rfl, Or.inl rfl, rfl⟩
  · obtain ⟨y, hy, rfl⟩ := List.mem_map.mp hm
    obtain ⟨hmem, hlacking⟩ := List.mem_filter.mp hy
    have hnone : ∀ x ∈ source, nameOf x ≠ nameOf y := by simpa using hlacking
    have hown : lastNamed nameOf (nameOf y) target = some y :=
      (lastNamed_eq_some ht).mpr ⟨hmem, rfl⟩
    exact ⟨(lastNamed_eq_none.mpr hnone).symm, hown.symm, Or.inr rfl, rfl⟩

/-- The differences of two lists without a repeated name. -/
theorem between_lists (equal : α → α → Bool) (hs : (source.map nameOf).Nodup)
    (ht : (target.map nameOf).Nodup) :
    Lists nameOf equal source target (between nameOf equal source target) := by
  refine ⟨map_name_between nameOf equal source target, between_names_nodup equal hs ht,
    ?source, ?target, ?state⟩
  case source =>
      intro m hm x
      rw [(sides_of_mem_between hs ht hm).1]
      exact lastNamed_eq_some hs
  case target =>
      intro m hm y
      rw [(sides_of_mem_between hs ht hm).2.1]
      exact lastNamed_eq_some ht
  case state =>
      intro m hm
      obtain ⟨-, -, hside, hstate⟩ := sides_of_mem_between hs ht hm
      rw [hstate]
      exact DiffState.classify_rules equal _ _ hside

end MemberDiff

/-! ## Items -/

/-- The differences inside a table on both sides: its columns, indexes and foreign keys,
and whether anything differs at all. -/
structure TableDiff.Describes (o : Options) (source target : Table) (state : DiffState)
    (d : TableDiff) : Prop where
  columns : MemberDiff.Lists Column.name (columnsEqual o) source.columns target.columns
    d.columns
  indexes : MemberDiff.Lists Index.name indexesEqual source.indexes target.indexes d.indexes
  foreignKeys : MemberDiff.Lists ForeignKey.name (foreignKeysEqual o) source.foreignKeys
    target.foreignKeys d.foreignKeys
  options : d.optionsChanged = false ↔ extensionsEqual o source.extension target.extension
  /-- The table is unchanged just if nothing inside it and nothing beside differs. -/
  unchanged : state = .unchanged ↔
    (∀ m ∈ d.columns, m.state = .unchanged) ∧ (∀ m ∈ d.indexes, m.state = .unchanged)
      ∧ (∀ m ∈ d.foreignKeys, m.state = .unchanged) ∧ d.optionsChanged = false

theorem TableDiff.isUnchanged_iff {d : TableDiff} :
    d.isUnchanged = true ↔
      (∀ m ∈ d.columns, m.state = .unchanged) ∧ (∀ m ∈ d.indexes, m.state = .unchanged)
        ∧ (∀ m ∈ d.foreignKeys, m.state = .unchanged) ∧ d.optionsChanged = false := by
  simp only [isUnchanged, Bool.and_eq_true, Bool.not_eq_true', List.all_eq_true,
    beq_iff_eq]
  constructor
  · rintro ⟨⟨⟨hoptions, hcolumns⟩, hindexes⟩, hkeys⟩
    exact ⟨hcolumns, hindexes, hkeys, hoptions⟩
  · rintro ⟨hcolumns, hindexes, hkeys, hoptions⟩
    exact ⟨⟨⟨hoptions, hcolumns⟩, hindexes⟩, hkeys⟩

/-- An item holds what either collection files under its key, and the state that follows
from it. -/
structure Item.Classified {c : Category} (o : Options) (source target : Keyed c.Object)
    (i : Item c) : Prop where
  source : ∀ x, i.source = some x ↔ (i.key, x) ∈ source
  target : ∀ y, i.target = some y ↔ (i.key, y) ∈ target
  state : DiffState.Rules (c.equal o) i.source i.target i.state

/-- A comparison that lists every key of either model once, in ascending order, with its
two objects and the state that follows from them, and inside the tables every member. -/
structure Comparison.Classifies (o : Options) (a b : Model) (r : Comparison) : Prop where
  ascending : ∀ c, Key.Ascending ((r.items c).map Item.key)
  keys : ∀ c k, k ∈ (r.items c).map Item.key ↔
    k ∈ (a.objects c).keys ∨ k ∈ (b.objects c).keys
  items : ∀ c, ∀ i ∈ r.items c, i.Classified o (a.objects c) (b.objects c)
  tables : ∀ i ∈ r.tables, ∀ x y, i.source = some x → i.target = some y →
    i.detail.Describes o x y i.state

namespace Item

variable {c : Category} {o : Options} {source target : Keyed c.Object} {i : Item c}

theorem map_key_itemsBetween (o : Options) (source target : Keyed c.Object) :
    (itemsBetween o c source target).map Item.key = source.unionKeys target := by
  unfold itemsBetween
  rw [List.map_map]
  exact List.map_id _

theorem classified_of_mem (hs : source.Ascending) (ht : target.Ascending)
    (hi : i ∈ itemsBetween o c source target) : i.Classified o source target := by
  obtain ⟨k, hk, rfl⟩ := List.mem_map.mp hi
  refine ⟨fun x => hs.find?_eq_some, fun y => ht.find?_eq_some, ?_⟩
  refine DiffState.classify_rules (c.equal o) _ _ ?_
  change (source.find? k).isSome ∨ (target.find? k).isSome
  rw [Option.isSome_iff_ne_none, Option.isSome_iff_ne_none]
  rcases Keyed.mem_unionKeys.mp hk with hk | hk
  · exact Or.inl fun hnone => Keyed.find?_eq_none.mp hnone hk
  · exact Or.inr fun hnone => Keyed.find?_eq_none.mp hnone hk

end Item

/-- The differences inside a table that stands on both sides. -/
theorem Item.ofSides_describes (o : Options) (key : Key) {x y : Table}
    (hx : x.DistinctNames) (hy : y.DistinctNames) :
    let i : Item .table := .ofSides o key (some x) (some y)
    i.detail.Describes o x y i.state := by
  have hstate : DiffState.classify (Category.equal o .table) (some x) (some y) = .unchanged
      ↔ (TableDiff.between o x y).isUnchanged = true := by
    have hrules := DiffState.classify_rules (Category.equal o .table) (some x) (some y)
      (Or.inl rfl)
    constructor
    · intro hunchanged
      obtain ⟨x', y', hx', hy', hequal⟩ := hrules.unchanged.mp hunchanged
      cases hx'
      cases hy'
      exact hequal
    · intro hequal
      exact hrules.unchanged.mpr ⟨x, y, rfl, rfl, hequal⟩
  refine ⟨?columns, ?indexes, ?foreignKeys, ?options, hstate.trans TableDiff.isUnchanged_iff⟩
  case columns => exact MemberDiff.between_lists (columnsEqual o) hx.columns hy.columns
  case indexes => exact MemberDiff.between_lists indexesEqual hx.indexes hy.indexes
  case foreignKeys =>
      exact MemberDiff.between_lists (foreignKeysEqual o) hx.foreignKeys hy.foreignKeys
  case options =>
      change (!extensionsEqual o x.extension y.extension) = false ↔ _
      rw [Bool.not_eq_false']

namespace Comparison

variable {a b : Model}

theorem between_classifies (o : Options) (ha : a.Ordered) (hb : b.Ordered)
    (hna : a.DistinctNames) (hnb : b.DistinctNames) :
    (between o a b).Classifies o a b := by
  refine ⟨?ascending, ?keys, ?items, ?tables⟩
  case ascending =>
      intro c
      rw [items_between, Item.map_key_itemsBetween]
      exact Keyed.ascending_unionKeys (ha c) _
  case keys =>
      intro c k
      rw [items_between, Item.map_key_itemsBetween]
      exact Keyed.mem_unionKeys
  case items =>
      intro c i hi
      rw [items_between] at hi
      exact Item.classified_of_mem (ha c) (hb c) hi
  case tables =>
      intro i hi x y hx hy
      obtain ⟨k, -, rfl⟩ := List.mem_map.mp hi
      have hsource : a.tables.find? k = some x := hx
      have htarget : b.tables.find? k = some y := hy
      have hxnames : x.DistinctNames := hna.find? (c := .table) hsource
      have hynames : y.DistinctNames := hnb.find? (c := .table) htarget
      rw [hsource, htarget]
      exact Item.ofSides_describes o k hxnames hynames

/-- Comparing two models of one dialect comes to a comparison that classifies them. -/
theorem compare_classifies (o : Options) (ha : a.Ordered) (hb : b.Ordered)
    (hna : a.DistinctNames) (hnb : b.DistinctNames) (hdialect : a.dialect = b.dialect) :
    ∃ r, ComparesTo o a b r ∧ r.Classifies o a b :=
  ⟨between o a b, comparesTo_between o hdialect, between_classifies o ha hb hna hnb⟩

/-- The customers that go and the orders that change are classified. -/
theorem compare_classifies_shop :
    shop.Ordered ∧ anonymousShop.Ordered ∧ shop.DistinctNames ∧ anonymousShop.DistinctNames
    ∧ shop.dialect = anonymousShop.dialect
    ∧ ∃ r, ComparesTo {} shop anonymousShop r ∧ r.Classifies {} shop anonymousShop := by
  have hshop : shop.Ordered := by decide
  have hanonymous : anonymousShop.Ordered := by decide
  have hnames : shop.DistinctNames := by decide
  have hnames' : anonymousShop.DistinctNames := by decide
  exact ⟨hshop, hanonymous, hnames, hnames', rfl,
    compare_classifies {} hshop hanonymous hnames hnames' rfl⟩

end Comparison

end Reconcile
