import Reconcile.Diff.Comparison
import Mathlib.Data.List.Nodup

/-!
# Differences from either side

No side of a comparison is special.  Every equality of objects is symmetric, and so is
the pairing of members by name as long as no list of members uses a name twice: read
from the other side, a difference lists the same pairs with the sides exchanged
(`MemberDiff.between_swapped_perm`).  Only their order is another, since it follows the
source.

Names have to be distinct because of several members of one name only the last is
paired: the others stay paired with it on one side and are lost on the other.
-/

namespace Reconcile

/-! ## Equalities -/

theorem sameFolded_comm (a b : String) : Text.sameFolded a b = Text.sameFolded b a :=
  BEq.comm

theorem columnsEqual_comm (o : Options) (a b : Column) :
    columnsEqual o a b = columnsEqual o b a := by
  unfold columnsEqual
  rw [sameFolded_comm, BEq.comm (a := a.nullable), BEq.comm (a := a.default),
    BEq.comm (a := a.identity), BEq.comm (a := a.comment), BEq.comm (a := a.collation),
    BEq.comm (a := a.characterSet)]

theorem indexesEqual_comm (a b : Index) : indexesEqual a b = indexesEqual b a := by
  unfold indexesEqual
  rw [BEq.comm (a := a.kind), BEq.comm (a := a.extension), BEq.comm (a := a.shape)]

theorem foreignKeysEqual_comm (o : Options) (a b : ForeignKey) :
    foreignKeysEqual o a b = foreignKeysEqual o b a := by
  unfold foreignKeysEqual
  rw [BEq.comm (a := a.referencedKey), BEq.comm (a := a.onUpdate),
    BEq.comm (a := a.onDelete), BEq.comm (a := a.pairs o)]

theorem extensionsEqual_comm (o : Options) (a b : TableExtension) :
    extensionsEqual o a b = extensionsEqual o b a := by
  cases a with
  | none =>
      cases b with
      | none => rfl
      | mySql => rfl
  | mySql engine version characterSet collation =>
      cases b with
      | none => rfl
      | mySql engine' version' characterSet' collation' =>
          simp only [extensionsEqual]
          rw [sameFolded_comm, BEq.comm (a := characterSet), BEq.comm (a := collation)]

theorem sequencesEqual_comm (a b : Sequence) : sequencesEqual a b = sequencesEqual b a := by
  unfold sequencesEqual
  rw [sameFolded_comm, BEq.comm (a := a.startValue), BEq.comm (a := a.increment),
    BEq.comm (a := a.minValue), BEq.comm (a := a.maxValue), BEq.comm (a := a.cycle)]

theorem viewsEqual_comm (a b : View) : viewsEqual a b = viewsEqual b a :=
  BEq.comm

theorem routinesEqual_comm (a b : Routine) : routinesEqual a b = routinesEqual b a := by
  unfold routinesEqual Text.sameDefinition
  rw [BEq.comm (a := a.arguments), BEq.comm (a := a.returnType),
    BEq.comm (a := Text.canonical a.definition)]

theorem DiffState.reversed_reversed (s : DiffState) : s.reversed.reversed = s := by
  cases s <;> rfl

/-- The state of a pair read from the other side. -/
theorem DiffState.classify_comm {α : Type} {equal : α → α → Bool} {a b : Option α}
    (h : ∀ x y, a = some x → b = some y → equal x y = equal y x) :
    classify equal b a = (classify equal a b).reversed := by
  cases a with
  | none => cases b <;> rfl
  | some x =>
      cases b with
      | none => rfl
      | some y =>
          simp only [classify, h x y rfl rfl]
          split <;> rfl

/-! ## Members by name -/

namespace MemberDiff

variable {α : Type} {nameOf : α → String} {equal : α → α → Bool} {source target : List α}
  {name : String} {m : MemberDiff α} {x : α}

/-- The difference of one member read from the other side. -/
def swapped (m : MemberDiff α) : MemberDiff α :=
  { name := m.name, state := m.state.reversed, source := m.target, target := m.source }

theorem swapped_swapped (m : MemberDiff α) : m.swapped.swapped = m := by
  unfold swapped
  rw [DiffState.reversed_reversed]

theorem lastNamed_eq_none :
    lastNamed nameOf name target = none ↔ ∀ x ∈ target, nameOf x ≠ name := by
  simp [lastNamed]

/-- Where no name is used twice, the last member of a name is the one of that name. -/
theorem lastNamed_eq_some (ht : (target.map nameOf).Nodup) :
    lastNamed nameOf name target = some x ↔ x ∈ target ∧ nameOf x = name := by
  have hfound : ∀ y, lastNamed nameOf name target = some y →
      y ∈ target ∧ nameOf y = name := by
    intro y hy
    exact ⟨List.mem_reverse.mp (List.mem_of_find?_eq_some hy),
      by simpa using List.find?_some hy⟩
  refine ⟨hfound x, ?_⟩
  rintro ⟨hx, hname⟩
  cases hlast : lastNamed nameOf name target with
  | none => exact absurd hname (lastNamed_eq_none.mp hlast x hx)
  | some y =>
      obtain ⟨hy, hyname⟩ := hfound y hlast
      rw [List.inj_on_of_nodup_map ht hy hx (hyname.trans hname.symm)]

/-- The differences are the pairs of one name, what only the source has and what only
the target has. -/
theorem mem_between (ht : (target.map nameOf).Nodup) :
    m ∈ between nameOf equal source target ↔
      (∃ x ∈ source, ∃ y ∈ target, nameOf x = nameOf y
        ∧ m = ⟨nameOf x, .classify equal (some x) (some y), some x, some y⟩)
      ∨ (∃ x ∈ source, (∀ y ∈ target, nameOf y ≠ nameOf x)
        ∧ m = ⟨nameOf x, .added, some x, none⟩)
      ∨ ∃ y ∈ target, (∀ x ∈ source, nameOf x ≠ nameOf y)
        ∧ m = ⟨nameOf y, .deleted, none, some y⟩ := by
  unfold between
  rw [List.mem_append, List.mem_map, List.mem_map]
  constructor
  · rintro (⟨x, hx, rfl⟩ | ⟨y, hy, rfl⟩)
    · cases hlast : lastNamed nameOf (nameOf x) target with
      | none =>
          refine Or.inr (Or.inl ⟨x, hx, lastNamed_eq_none.mp hlast, ?_⟩)
          simp [ofSource, hlast, DiffState.classify]
      | some y =>
          obtain ⟨hy, hname⟩ := (lastNamed_eq_some ht).mp hlast
          exact Or.inl ⟨x, hx, y, hy, hname.symm, by simp [ofSource, hlast]⟩
    · obtain ⟨hmem, hnone⟩ := List.mem_filter.mp hy
      exact Or.inr (Or.inr ⟨y, hmem, by simpa using hnone, rfl⟩)
  · rintro (⟨x, hx, y, hy, hname, rfl⟩ | ⟨x, hx, hnone, rfl⟩ | ⟨y, hy, hnone, rfl⟩)
    · have hlast := (lastNamed_eq_some ht).mpr ⟨hy, hname.symm⟩
      exact Or.inl ⟨x, hx, by simp [ofSource, hlast]⟩
    · have hlast := lastNamed_eq_none.mpr hnone
      exact Or.inl ⟨x, hx, by simp [ofSource, hlast, DiffState.classify]⟩
    · exact Or.inr ⟨y, List.mem_filter.mpr ⟨hy, by simpa using hnone⟩, rfl⟩

/-- No name occurs twice among the differences. -/
theorem between_names_nodup (equal : α → α → Bool) (hs : (source.map nameOf).Nodup)
    (ht : (target.map nameOf).Nodup) :
    ((between nameOf equal source target).map MemberDiff.name).Nodup := by
  unfold between
  rw [List.map_append, List.map_map, List.map_map, List.nodup_append]
  refine ⟨hs, ?_, ?_⟩
  · exact ht.sublist (List.filter_sublist.map nameOf)
  · intro name hname name' hname'
    obtain ⟨x, hx, rfl⟩ := List.mem_map.mp hname
    obtain ⟨y, hy, rfl⟩ := List.mem_map.mp hname'
    have hnone : ∀ z ∈ source, nameOf z ≠ nameOf y := by
      simpa using (List.mem_filter.mp hy).2
    exact hnone x hx

theorem swapped_mem_between (hs : (source.map nameOf).Nodup)
    (ht : (target.map nameOf).Nodup) (hcomm : ∀ x y, equal x y = equal y x)
    (h : m ∈ between nameOf equal source target) :
    m.swapped ∈ between nameOf equal target source := by
  rw [mem_between hs]
  rcases (mem_between ht).mp h with ⟨x, hx, y, hy, hname, rfl⟩ | ⟨x, hx, hnone, rfl⟩
    | ⟨y, hy, hnone, rfl⟩
  · refine Or.inl ⟨y, hy, x, hx, hname.symm, ?_⟩
    rw [DiffState.classify_comm (a := some x) (b := some y) fun x y _ _ => hcomm x y,
      ← hname]
    rfl
  · exact Or.inr (Or.inr ⟨x, hx, hnone, rfl⟩)
  · exact Or.inr (Or.inl ⟨y, hy, hnone, rfl⟩)

/-- From the other side the same differences are listed with their sides exchanged. -/
theorem between_swapped_perm (hs : (source.map nameOf).Nodup)
    (ht : (target.map nameOf).Nodup) (hcomm : ∀ x y, equal x y = equal y x) :
    (between nameOf equal target source).Perm
      ((between nameOf equal source target).map swapped) := by
  have hinjective : Function.Injective (@swapped α) :=
    Function.LeftInverse.injective swapped_swapped
  have hnodup := List.Nodup.of_map _ (between_names_nodup equal ht hs)
  have hnodup' := List.Nodup.of_map _ (between_names_nodup equal hs ht)
  -- Neither list has anything twice, so it is enough that they hold the same.
  refine (List.perm_ext_iff_of_nodup hnodup (hnodup'.map hinjective)).mpr fun m => ?_
  constructor
  · intro hm
    exact List.mem_map.mpr
      ⟨m.swapped, swapped_mem_between ht hs hcomm hm, swapped_swapped m⟩
  · intro hm
    obtain ⟨m', hm', rfl⟩ := List.mem_map.mp hm
    exact swapped_mem_between hs ht hcomm hm'

end MemberDiff

/-! ## Tables -/

/-- No two columns of a table share a name, nor two indexes, nor two foreign keys. -/
structure Table.DistinctNames (t : Table) : Prop where
  columns : (t.columns.map Column.name).Nodup
  indexes : (t.indexes.map Index.name).Nodup
  foreignKeys : (t.foreignKeys.map ForeignKey.name).Nodup

instance (t : Table) : Decidable t.DistinctNames :=
  decidable_of_iff ((t.columns.map Column.name).Nodup ∧ (t.indexes.map Index.name).Nodup
      ∧ (t.foreignKeys.map ForeignKey.name).Nodup)
    ⟨fun h => ⟨h.1, h.2.1, h.2.2⟩, fun h => ⟨h.columns, h.indexes, h.foreignKeys⟩⟩

/-- Two differences are each other's view from the other side, up to the order in which
they list members. -/
structure TableDiff.Mirrors (d d' : TableDiff) : Prop where
  columns : d.columns.Perm (d'.columns.map MemberDiff.swapped)
  indexes : d.indexes.Perm (d'.indexes.map MemberDiff.swapped)
  foreignKeys : d.foreignKeys.Perm (d'.foreignKeys.map MemberDiff.swapped)
  optionsChanged : d.optionsChanged = d'.optionsChanged

namespace TableDiff

theorem mirrors_empty : Mirrors {} {} :=
  ⟨.nil, .nil, .nil, rfl⟩

theorem between_mirrors (o : Options) {a b : Table} (ha : a.DistinctNames)
    (hb : b.DistinctNames) : (between o b a).Mirrors (between o a b) := by
  refine ⟨?_, ?_, ?_, ?_⟩
  · exact MemberDiff.between_swapped_perm ha.columns hb.columns (columnsEqual_comm o)
  · exact MemberDiff.between_swapped_perm ha.indexes hb.indexes indexesEqual_comm
  · exact MemberDiff.between_swapped_perm ha.foreignKeys hb.foreignKeys
      (foreignKeysEqual_comm o)
  · exact congrArg (!·) (extensionsEqual_comm o b.extension a.extension)

theorem all_unchanged_of_perm {α : Type} {ms ms' : List (MemberDiff α)}
    (h : ms.Perm (ms'.map MemberDiff.swapped)) :
    ms.all (·.state == .unchanged) = ms'.all (·.state == .unchanged) := by
  rw [h.all_eq, List.all_map]
  refine congrArg (List.all ms') (funext fun m => ?_)
  cases hstate : m.state <;> simp [MemberDiff.swapped, hstate, DiffState.reversed]

/-- Whether two tables differ does not depend on the side. -/
theorem Mirrors.isUnchanged_eq {d d' : TableDiff} (h : d.Mirrors d') :
    d.isUnchanged = d'.isUnchanged := by
  unfold isUnchanged
  rw [h.optionsChanged, all_unchanged_of_perm h.columns, all_unchanged_of_perm h.indexes,
    all_unchanged_of_perm h.foreignKeys]

end TableDiff

end Reconcile
