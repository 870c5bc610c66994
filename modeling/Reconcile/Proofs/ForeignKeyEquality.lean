import Reconcile.Proofs.Relaxation
import Reconcile.Proofs.StableOrder
import Mathlib.Data.String.Basic

/-!
# When foreign keys are equal

Two foreign keys are equal if they refer to the same table, do the same when its rows change,
and have the same pairs of columns.  An option decides what the same pairs are: the same list
in the order of their numbers, or the same pairs in any order, each as often (`CompareAs`).
A pair's number is never compared, only what it says about the order (`renumbered`).

Where the order is ignored the pairs are sorted by their texts before they are compared.
Texts have a total order, so sorted lists are equal just if one is a permutation of the other
(`mergeSort_pairAtMost_eq_iff`), with pairs that occur several times counted.
-/

namespace Reconcile

/-! ## Sorting pairs of texts -/

theorem pairAtMost_iff {a b : String × String} :
    pairAtMost a b = true ↔ a.1 < b.1 ∨ a.1 = b.1 ∧ a.2 ≤ b.2 := by
  unfold pairAtMost
  rw [Bool.or_eq_true, Bool.and_eq_true, decide_eq_true_iff, beq_iff_eq, Bool.not_eq_true',
    decide_eq_false_iff_not, not_lt]

theorem pairAtMost_trans (a b c : String × String) (hab : pairAtMost a b = true)
    (hbc : pairAtMost b c = true) : pairAtMost a c = true := by
  rw [pairAtMost_iff] at *
  rcases hab with hab | ⟨hab, hab'⟩
  · rcases hbc with hbc | ⟨hbc, -⟩
    · exact Or.inl (hab.trans hbc)
    · exact Or.inl (hbc ▸ hab)
  · rcases hbc with hbc | ⟨hbc, hbc'⟩
    · exact Or.inl (hab ▸ hbc)
    · exact Or.inr ⟨hab.trans hbc, hab'.trans hbc'⟩

theorem pairAtMost_total (a b : String × String) :
    (pairAtMost a b || pairAtMost b a) = true := by
  rw [Bool.or_eq_true, pairAtMost_iff, pairAtMost_iff]
  rcases lt_trichotomy a.1 b.1 with h | h | h
  · exact Or.inl (Or.inl h)
  · rcases le_total a.2 b.2 with h' | h'
    · exact Or.inl (Or.inr ⟨h, h'⟩)
    · exact Or.inr (Or.inr ⟨h.symm, h'⟩)
  · exact Or.inr (Or.inl h)

theorem pairAtMost_antisymm {a b : String × String} (hab : pairAtMost a b = true)
    (hba : pairAtMost b a = true) : a = b := by
  rw [pairAtMost_iff] at *
  rcases hab with hab | ⟨hab, hab'⟩
  · rcases hba with hba | ⟨hba, -⟩
    · exact absurd hab hba.asymm
    · exact absurd hab hba.not_gt
  · rcases hba with hba | ⟨-, hba'⟩
    · exact absurd hab hba.ne'
    · exact Prod.ext hab (le_antisymm hab' hba')

/-- Sorted lists of pairs are equal just if the pairs are the same, each as often. -/
theorem mergeSort_pairAtMost_eq_iff (xs ys : List (String × String)) :
    xs.mergeSort pairAtMost = ys.mergeSort pairAtMost ↔ xs.Perm ys := by
  have hxs := List.mergeSort_perm xs pairAtMost
  have hys := List.mergeSort_perm ys pairAtMost
  constructor
  · intro h
    exact hxs.symm.trans (h ▸ hys)
  · intro h
    apply List.Perm.eq_of_pairwise
    · intro a b _ _ hab hba
      exact pairAtMost_antisymm hab hba
    · exact List.pairwise_mergeSort pairAtMost_trans pairAtMost_total xs
    · exact List.pairwise_mergeSort pairAtMost_trans pairAtMost_total ys
    · exact hxs.trans (h.trans hys.symm)

/-! ## What is compared -/

/-- A column and the one that it refers to. -/
def ForeignKeyColumn.pair (c : ForeignKeyColumn) : String × String :=
  (c.column, c.referencedColumn)

namespace ForeignKey

/-- Both refer to one table, with one action for each event. -/
structure Agrees (a b : ForeignKey) : Prop where
  schema : a.referencedSchema = b.referencedSchema
  table : a.referencedTable = b.referencedTable
  onUpdate : a.onUpdate = b.onUpdate
  onDelete : a.onDelete = b.onDelete

/-- The same key with its column pairs numbered otherwise. -/
def renumbered (f : UInt32 → UInt32) (fk : ForeignKey) : ForeignKey :=
  { fk with columns := fk.columns.map fun c => { c with ordinal := f c.ordinal } }

/-- The new numbers put the column pairs in the order of the old ones. -/
def KeepsOrder (f : UInt32 → UInt32) (fk : ForeignKey) : Prop :=
  ∀ c ∈ fk.columns, ∀ d ∈ fk.columns, f c.ordinal ≤ f d.ordinal ↔ c.ordinal ≤ d.ordinal

variable {o : Options} {a b : ForeignKey}

theorem foreignKeysEqual_iff_pairs :
    foreignKeysEqual o a b = true ↔ a.Agrees b ∧ a.pairs o = b.pairs o := by
  unfold foreignKeysEqual referencedKey
  simp only [Bool.and_eq_true, beq_iff_eq, Key.mk.injEq]
  constructor
  · rintro ⟨⟨⟨⟨hschema, htable⟩, hupdate⟩, hdelete⟩, hpairs⟩
    exact ⟨⟨hschema, htable, hupdate, hdelete⟩, hpairs⟩
  · rintro ⟨⟨hschema, htable, hupdate, hdelete⟩, hpairs⟩
    exact ⟨⟨⟨⟨hschema, htable⟩, hupdate⟩, hdelete⟩, hpairs⟩

theorem pairs_of_ordered (ho : o.ignoreReferenceTableColumnOrder = false) (fk : ForeignKey) :
    fk.pairs o = fk.orderedColumns.map ForeignKeyColumn.pair := by
  unfold pairs
  rw [ho]
  rfl

theorem pairs_of_ignored (ho : o.ignoreReferenceTableColumnOrder = true) (fk : ForeignKey) :
    fk.pairs o = (fk.orderedColumns.map ForeignKeyColumn.pair).mergeSort pairAtMost := by
  unfold pairs
  rw [ho]
  rfl

theorem orderedColumns_pairs_perm (fk : ForeignKey) :
    (fk.orderedColumns.map ForeignKeyColumn.pair).Perm (fk.columns.map ForeignKeyColumn.pair) :=
  (stablyOrdered_sortedByOrdinal ForeignKeyColumn.ordinal fk.columns).perm.map _

/-- Where the order is ignored the pairs count, each as often as it occurs. -/
theorem pairs_eq_iff_perm (ho : o.ignoreReferenceTableColumnOrder = true) :
    a.pairs o = b.pairs o
      ↔ (a.columns.map ForeignKeyColumn.pair).Perm (b.columns.map ForeignKeyColumn.pair) := by
  rw [pairs_of_ignored ho, pairs_of_ignored ho, mergeSort_pairAtMost_eq_iff]
  have ha := orderedColumns_pairs_perm a
  have hb := orderedColumns_pairs_perm b
  constructor
  · intro h
    exact ha.symm.trans (h.trans hb)
  · intro h
    exact ha.trans (h.trans hb.symm)

/-- Elsewhere the list of pairs counts, in the stable order of their numbers. -/
theorem pairs_eq_iff_ordered (ho : o.ignoreReferenceTableColumnOrder = false)
    {xs ys : List ForeignKeyColumn}
    (hxs : StablyOrdered (fun c => c.ordinal.toNat) a.columns xs)
    (hys : StablyOrdered (fun c => c.ordinal.toNat) b.columns ys) :
    a.pairs o = b.pairs o ↔ xs.map ForeignKeyColumn.pair = ys.map ForeignKeyColumn.pair := by
  have ha := hxs.unique (stablyOrdered_sortedByOrdinal ForeignKeyColumn.ordinal a.columns)
  have hb := hys.unique (stablyOrdered_sortedByOrdinal ForeignKeyColumn.ordinal b.columns)
  rw [pairs_of_ordered ho, pairs_of_ordered ho, ha, hb]
  rfl

/-! ## Other numbers -/

variable {f : UInt32 → UInt32}

theorem orderedColumns_renumbered {fk : ForeignKey} (h : fk.KeepsOrder f) :
    (fk.renumbered f).orderedColumns
      = fk.orderedColumns.map fun c => { c with ordinal := f c.ordinal } := by
  unfold orderedColumns sortedByOrdinal
  symm
  apply List.map_mergeSort
  intro c hc d hd
  exact decide_eq_decide.mpr (h c hc d hd).symm

/-- Numbers count by the order that they give, and not at all where the order is ignored. -/
theorem pairs_renumbered {fk : ForeignKey}
    (h : o.ignoreReferenceTableColumnOrder = true ∨ fk.KeepsOrder f) :
    (fk.renumbered f).pairs o = fk.pairs o := by
  cases ho : o.ignoreReferenceTableColumnOrder with
  | true =>
      rw [pairs_eq_iff_perm ho, renumbered, List.map_map]
      exact List.Perm.refl _
  | false =>
      have horder : fk.KeepsOrder f := by simpa [ho] using h
      rw [pairs_of_ordered ho, pairs_of_ordered ho, orderedColumns_renumbered horder,
        List.map_map]
      rfl

end ForeignKey

/-! ## The meaning of the option -/

open ForeignKey in
/-- What it takes for two foreign keys to be equal under an option and without it. -/
structure ForeignKey.CompareAs (a b : ForeignKey) : Prop where
  /-- With the option, the same pairs of columns in any order, each as often. -/
  relaxed : ∀ o : Options, o.ignoreReferenceTableColumnOrder = true →
    (foreignKeysEqual o a b = true ↔ a.Agrees b
      ∧ (a.columns.map ForeignKeyColumn.pair).Perm (b.columns.map ForeignKeyColumn.pair))
  /-- Without it, the same list of pairs, by their numbers and those of one number as they are
  stored. -/
  strict : ∀ o : Options, o.ignoreReferenceTableColumnOrder = false → ∀ xs ys,
    StablyOrdered (fun c => c.ordinal.toNat) a.columns xs →
    StablyOrdered (fun c => c.ordinal.toNat) b.columns ys →
    (foreignKeysEqual o a b = true ↔ a.Agrees b
      ∧ xs.map ForeignKeyColumn.pair = ys.map ForeignKeyColumn.pair)
  /-- There is one such order, so that the pairs in it are a matter of the key alone. -/
  ordered : ∀ fk : ForeignKey,
    ∃! xs, StablyOrdered (fun c : ForeignKeyColumn => c.ordinal.toNat) fk.columns xs
  /-- With the option other numbers make no difference, and without it only those that order
  the pairs otherwise do. -/
  renumbered : ∀ (o : Options) (f g : UInt32 → UInt32),
    o.ignoreReferenceTableColumnOrder = true ∨ a.KeepsOrder f ∧ b.KeepsOrder g →
    foreignKeysEqual o (a.renumbered f) (b.renumbered g) = foreignKeysEqual o a b
  /-- Equal without the option is equal with it. -/
  relaxes : ∀ o : Options,
    foreignKeysEqual { o with ignoreReferenceTableColumnOrder := false } a b = true →
    foreignKeysEqual { o with ignoreReferenceTableColumnOrder := true } a b = true

theorem foreignKeys_compareAs (a b : ForeignKey) : a.CompareAs b := by
  refine ⟨?relaxed, ?strict, ?ordered, ?renumbered, ?relaxes⟩
  case relaxed =>
      intro o ho
      rw [ForeignKey.foreignKeysEqual_iff_pairs, ForeignKey.pairs_eq_iff_perm ho]
  case strict =>
      intro o ho xs ys hxs hys
      rw [ForeignKey.foreignKeysEqual_iff_pairs, ForeignKey.pairs_eq_iff_ordered ho hxs hys]
  case ordered =>
      intro fk
      refine ⟨fk.orderedColumns, stablyOrdered_sortedByOrdinal _ _, ?_⟩
      intro xs hxs
      exact hxs.unique (stablyOrdered_sortedByOrdinal _ _)
  case renumbered =>
      intro o f g h
      have ha : (a.renumbered f).pairs o = a.pairs o :=
        ForeignKey.pairs_renumbered (h.imp_right And.left)
      have hb : (b.renumbered g).pairs o = b.pairs o :=
        ForeignKey.pairs_renumbered (h.imp_right And.right)
      unfold foreignKeysEqual
      rw [ha, hb]
      rfl
  case relaxes =>
      intro o h
      have hrelaxed : Options.RelaxedBy { o with ignoreReferenceTableColumnOrder := false }
          { o with ignoreReferenceTableColumnOrder := true } :=
        ⟨fun hcollate => hcollate, fun _ => rfl⟩
      exact foreignKeysEqual_relaxed hrelaxed h

end Reconcile
