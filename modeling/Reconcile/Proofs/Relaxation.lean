import Reconcile.Proofs.Classification

/-!
# Comparing under relaxed options

Two options make a comparison overlook something: collations, and the order of the column
pairs of a foreign key.  Overlooking more can only make equal what was told apart, so a
comparison under relaxed options lists the same objects and the same members with the same
sides, and of their states none changes but `modified`, which may become `unchanged`
(`DiffState.RelaxesTo`).

The equalities are where an option counts; everything above them is a rule applied to
pairs that do not depend on options (`DiffState.classify_relaxes`), and is carried through
members, tables, items and categories in turn.  The other two options are about scripts,
and no equality reads them.
-/

namespace Reconcile

/-- The second options overlook at least what the first overlook. -/
structure Options.RelaxedBy (o o' : Options) : Prop where
  collate : o.ignoreCollate = true → o'.ignoreCollate = true
  columnOrder : o.ignoreReferenceTableColumnOrder = true →
    o'.ignoreReferenceTableColumnOrder = true

/-- The options with others on how scripts are spelled. -/
def Options.spelled (o : Options) (alphabetically schema : Bool) : Options :=
  { o with orderColumnsAlphabetically := alphabetically, useSchemaName := schema }

/-! ## What stays equal -/

section Equalities

variable {o o' : Options} (h : o.RelaxedBy o')
include h

theorem columnsEqual_relaxed {a b : Column} (hab : columnsEqual o a b = true) :
    columnsEqual o' a b = true := by
  unfold columnsEqual at hab ⊢
  rw [Bool.and_eq_true, Bool.or_eq_true] at hab ⊢
  exact ⟨hab.1, hab.2.imp_left h.collate⟩

/-- Pairs that agree in their order agree when they are sorted. -/
theorem ForeignKey.pairs_relaxed {a b : ForeignKey} (hab : a.pairs o = b.pairs o) :
    a.pairs o' = b.pairs o' := by
  unfold pairs at hab ⊢
  cases ho' : o'.ignoreReferenceTableColumnOrder with
  | false =>
      have ho : o.ignoreReferenceTableColumnOrder = false :=
        Bool.eq_false_iff.mpr fun ho => by simp [h.columnOrder ho] at ho'
      simpa [ho] using hab
  | true =>
      cases ho : o.ignoreReferenceTableColumnOrder with
      | true => simpa [ho] using hab
      | false =>
          have hpairs : (a.orderedColumns.map fun c => (c.column, c.referencedColumn))
              = b.orderedColumns.map fun c => (c.column, c.referencedColumn) := by
            simpa [ho] using hab
          simp only [if_true, hpairs]

theorem foreignKeysEqual_relaxed {a b : ForeignKey} (hab : foreignKeysEqual o a b = true) :
    foreignKeysEqual o' a b = true := by
  unfold foreignKeysEqual at hab ⊢
  rw [Bool.and_eq_true, beq_iff_eq (a := a.pairs o)] at hab
  rw [Bool.and_eq_true, beq_iff_eq (a := a.pairs o')]
  exact ⟨hab.1, ForeignKey.pairs_relaxed h hab.2⟩

theorem extensionsEqual_relaxed {a b : TableExtension}
    (hab : extensionsEqual o a b = true) : extensionsEqual o' a b = true := by
  cases a with
  | none =>
      cases b with
      | none => rfl
      | mySql => cases hab
  | mySql engine version characterSet collation =>
      cases b with
      | none => cases hab
      | mySql engine' version' characterSet' collation' =>
          unfold extensionsEqual at hab ⊢
          rw [Bool.and_eq_true, Bool.or_eq_true] at hab ⊢
          exact ⟨hab.1, hab.2.imp_left h.collate⟩

end Equalities

/-! ## States and members -/

/-- Nothing changes between two states but that `modified` may have become `unchanged`. -/
structure DiffState.RelaxesTo (s s' : DiffState) : Prop where
  added : s' = .added ↔ s = .added
  deleted : s' = .deleted ↔ s = .deleted
  unchanged : s = .unchanged → s' = .unchanged

namespace DiffState

theorem relaxesTo_refl (s : DiffState) : s.RelaxesTo s :=
  ⟨Iff.rfl, Iff.rfl, id⟩

theorem relaxesTo_unchanged : DiffState.modified.RelaxesTo .unchanged :=
  ⟨by decide, by decide, by decide⟩

/-- The rule for states under an equality that tells less apart. -/
theorem classify_relaxes {α : Type} {equal equal' : α → α → Bool}
    (h : ∀ x y, equal x y = true → equal' x y = true) (source target : Option α) :
    (classify equal source target).RelaxesTo (classify equal' source target) := by
  cases source with
  | none => cases target <;> exact relaxesTo_refl _
  | some x =>
      cases target with
      | none => exact relaxesTo_refl _
      | some y =>
          simp only [classify]
          by_cases hequal : equal x y = true
          · rw [if_pos hequal, if_pos (h x y hequal)]
            exact relaxesTo_refl _
          · rw [if_neg hequal]
            split
            · exact relaxesTo_unchanged
            · exact relaxesTo_refl _

end DiffState

namespace MemberDiff

variable {α : Type}

/-- The same member with the same sides, in a state that may be relaxed. -/
structure RelaxesTo (m m' : MemberDiff α) : Prop where
  name : m'.name = m.name
  source : m'.source = m.source
  target : m'.target = m.target
  state : m.state.RelaxesTo m'.state

theorem between_relaxes {nameOf : α → String} {equal equal' : α → α → Bool}
    (h : ∀ x y, equal x y = true → equal' x y = true) (source target : List α) :
    List.Forall₂ RelaxesTo (between nameOf equal source target)
      (between nameOf equal' source target) := by
  unfold between
  refine List.rel_append ?_ ?_
  · rw [List.forall₂_map_left_iff, List.forall₂_map_right_iff, List.forall₂_same]
    exact fun m _ => ⟨rfl, rfl, rfl, DiffState.classify_relaxes h _ _⟩
  · rw [List.forall₂_same]
    exact fun m _ => ⟨rfl, rfl, rfl, DiffState.relaxesTo_refl _⟩

theorem all_unchanged_relaxed {ms ms' : List (MemberDiff α)}
    (h : List.Forall₂ RelaxesTo ms ms') (hms : ∀ m ∈ ms, m.state = .unchanged) :
    ∀ m ∈ ms', m.state = .unchanged := by
  induction h with
  | nil => exact hms
  | cons hm _ ih =>
      obtain ⟨hfirst, hrest⟩ := List.forall_mem_cons.mp hms
      exact List.forall_mem_cons.mpr ⟨hm.state.unchanged hfirst, ih hrest⟩

end MemberDiff

/-! ## Tables -/

/-- The same members in states that may be relaxed.  Of indexes nothing is overlooked, and
what a table says beside its members does not come to differ. -/
structure TableDiff.RelaxesTo (d d' : TableDiff) : Prop where
  columns : List.Forall₂ MemberDiff.RelaxesTo d.columns d'.columns
  indexes : d'.indexes = d.indexes
  foreignKeys : List.Forall₂ MemberDiff.RelaxesTo d.foreignKeys d'.foreignKeys
  optionsChanged : d'.optionsChanged = true → d.optionsChanged = true

namespace TableDiff

theorem relaxesTo_empty : ({} : TableDiff).RelaxesTo {} :=
  ⟨.nil, rfl, .nil, id⟩

theorem between_relaxes {o o' : Options} (h : o.RelaxedBy o') (source target : Table) :
    (between o source target).RelaxesTo (between o' source target) := by
  refine ⟨?columns, rfl, ?foreignKeys, ?options⟩
  case columns =>
      exact MemberDiff.between_relaxes (fun _ _ => columnsEqual_relaxed h) _ _
  case foreignKeys =>
      exact MemberDiff.between_relaxes (fun _ _ => foreignKeysEqual_relaxed h) _ _
  case options =>
      change (!extensionsEqual o' source.extension target.extension) = true →
        (!extensionsEqual o source.extension target.extension) = true
      rw [Bool.not_eq_true', Bool.not_eq_true']
      intro hdiffers
      by_contra hequal
      rw [Bool.not_eq_false] at hequal
      rw [extensionsEqual_relaxed h hequal] at hdiffers
      cases hdiffers

theorem RelaxesTo.isUnchanged {d d' : TableDiff} (h : d.RelaxesTo d')
    (hd : d.isUnchanged = true) : d'.isUnchanged = true := by
  obtain ⟨hcolumns, hindexes, hkeys, hoptions⟩ := isUnchanged_iff.mp hd
  refine isUnchanged_iff.mpr ⟨MemberDiff.all_unchanged_relaxed h.columns hcolumns, ?_,
    MemberDiff.all_unchanged_relaxed h.foreignKeys hkeys, ?_⟩
  · rw [h.indexes]
    exact hindexes
  · rw [← Bool.not_eq_true] at hoptions ⊢
    exact fun hchanged => hoptions (h.optionsChanged hchanged)

end TableDiff

/-! ## Items and comparisons -/

/-- What an item says beside its state may be relaxed where it is a table. -/
def Category.DetailRelaxesTo : (c : Category) → c.Detail → c.Detail → Prop
  | .table, d, d' => d.RelaxesTo d'
  | .sequence, _, _ => True
  | .view, _, _ => True
  | .function, _, _ => True
  | .procedure, _, _ => True

theorem Category.equal_relaxed {o o' : Options} (h : o.RelaxedBy o') {c : Category}
    {x y : c.Object} (hxy : c.equal o x y = true) : c.equal o' x y = true := by
  cases c with
  | table => exact (TableDiff.between_relaxes h x y).isUnchanged hxy
  | _ => exact hxy

/-- The same object with the same sides, in a state that may be relaxed. -/
structure Item.RelaxesTo {c : Category} (i j : Item c) : Prop where
  key : j.key = i.key
  source : j.source = i.source
  target : j.target = i.target
  state : i.state.RelaxesTo j.state
  detail : c.DetailRelaxesTo i.detail j.detail

theorem Item.ofSides_relaxes {o o' : Options} (h : o.RelaxedBy o') {c : Category} (key : Key)
    (source target : Option c.Object) :
    (ofSides o key source target).RelaxesTo (ofSides o' key source target) := by
  refine ⟨rfl, rfl, rfl, DiffState.classify_relaxes (fun _ _ => Category.equal_relaxed h) _ _,
    ?_⟩
  cases c with
  | table =>
      cases source with
      | none => cases target <;> exact TableDiff.relaxesTo_empty
      | some x =>
          cases target with
          | none => exact TableDiff.relaxesTo_empty
          | some y => exact TableDiff.between_relaxes h x y
  | _ => trivial

/-- The same items in the same order, in states that may be relaxed. -/
structure Comparison.RelaxesTo (r r' : Comparison) : Prop where
  dialect : r'.dialect = r.dialect
  items : ∀ c, List.Forall₂ Item.RelaxesTo (r.items c) (r'.items c)

namespace Comparison

variable {o o' : Options} {a b : Model}

theorem between_relaxes (h : o.RelaxedBy o') (a b : Model) :
    (between o a b).RelaxesTo (between o' a b) := by
  refine ⟨rfl, fun c => ?_⟩
  rw [items_between, items_between]
  unfold itemsBetween
  rw [List.forall₂_map_left_iff, List.forall₂_map_right_iff, List.forall₂_same]
  exact fun key _ => Item.ofSides_relaxes h key _ _

/-- How scripts are spelled does not show in a comparison, except in the options that it
says it was made under. -/
theorem between_spelled (o : Options) (alphabetically schema : Bool) (a b : Model) :
    between (o.spelled alphabetically schema) a b
      = { between o a b with options := o.spelled alphabetically schema } :=
  rfl

/-- Under relaxed options comparing two models comes to the same items, in states that may
be relaxed, and under other options on how scripts are spelled it comes to the same
comparison. -/
theorem compare_relaxes (h : o.RelaxedBy o') (hdialect : a.dialect = b.dialect) :
    ∃ r r', ComparesTo o a b r ∧ ComparesTo o' a b r' ∧ r.RelaxesTo r'
      ∧ ∀ alphabetically schema, ComparesTo (o.spelled alphabetically schema) a b
          { r with options := o.spelled alphabetically schema } := by
  refine ⟨between o a b, between o' a b, comparesTo_between o hdialect,
    comparesTo_between o' hdialect, between_relaxes h a b, fun alphabetically schema => ?_⟩
  rw [← between_spelled]
  exact comparesTo_between _ hdialect

/-- Customers with names in `collation` and a foreign key over `columns`. -/
def regionalShop (collation : String) (columns : List ForeignKeyColumn) : Model :=
  { dialect := .postgreSql
    database := "shop"
    tables :=
      [(⟨"public", "customers"⟩,
        { schema := "public", name := "customers"
          columns := [{ name := "name", dataType := "text", collation := some collation }]
          foreignKeys := [{ name := "lives", columns, referencedSchema := "public",
                            referencedTable := "regions" }] })] }

/-- Once collations are ignored as well as the order of column pairs, the names of the
customers no longer differ, and neither does their foreign key. -/
theorem compare_relaxes_shop :
    let here := regionalShop "C" [⟨1, "land", "land"⟩, ⟨2, "region", "name"⟩]
    let there := regionalShop "en" [⟨2, "land", "land"⟩, ⟨1, "region", "name"⟩]
    let o : Options := { ignoreReferenceTableColumnOrder := true }
    let o' : Options := { o with ignoreCollate := true }
    o.RelaxedBy o' ∧ here.dialect = there.dialect
    ∧ ∃ r r', ComparesTo o here there r ∧ ComparesTo o' here there r' ∧ r.RelaxesTo r'
      ∧ ∀ alphabetically schema, ComparesTo (o.spelled alphabetically schema) here there
          { r with options := o.spelled alphabetically schema } := by
  intro here there o o'
  have hrelaxed : o.RelaxedBy o' := ⟨fun _ => rfl, id⟩
  have hdialect : here.dialect = there.dialect := rfl
  exact ⟨hrelaxed, hdialect, compare_relaxes hrelaxed hdialect⟩

end Comparison

end Reconcile
