import Reconcile.Schema.Table
import Mathlib.Data.List.Nodup
import Mathlib.Data.Nat.Basic
import Mathlib.Order.Lattice

/-!
# Stable orders

The columns of an index or a foreign key are put in the order of their numbers, and those of a
new table may be put in the order of their names.  Either time columns of one key stay as they
stood (`StablyOrdered`).  That leaves no choice: whatever the key, a list has exactly one
stable order (`StablyOrdered.unique`), and sorting by merging finds it
(`stablyOrdered_mergeSort`).
-/

namespace Reconcile

/-- The second list is the first by a key, and what has one key stands as it stood. -/
structure StablyOrdered {α κ : Type} [LinearOrder κ] (key : α → κ) (xs ys : List α) : Prop where
  perm : ys.Perm xs
  ordered : ys.Pairwise fun a b => key a ≤ key b
  stable : ∀ k, ys.filter (fun x => key x = k) = xs.filter (fun x => key x = k)

variable {α κ : Type} [LinearOrder κ] {key : α → κ} {xs ys zs : List α}

/-- Ordered lists with the same elements of every key, in the same order, are the same. -/
theorem eq_of_ordered_of_filter_eq (hys : ys.Pairwise fun a b => key a ≤ key b)
    (hzs : zs.Pairwise fun a b => key a ≤ key b)
    (hfilter : ∀ k, ys.filter (fun x => key x = k) = zs.filter (fun x => key x = k)) :
    ys = zs := by
  have hmem : ∀ x, x ∈ ys ↔ x ∈ zs := by
    intro x
    have hx := congrArg (x ∈ ·) (hfilter (key x))
    simpa using hx
  induction ys generalizing zs with
  | nil =>
      symm
      apply List.eq_nil_iff_forall_not_mem.mpr
      intro x hx
      exact List.not_mem_nil ((hmem x).mpr hx)
  | cons y ys ih =>
      cases zs with
      | nil => exact absurd ((hmem y).mp List.mem_cons_self) List.not_mem_nil
      | cons z zs =>
          rw [List.pairwise_cons] at hys hzs
          have hle : key y ≤ key z := by
            rcases List.mem_cons.mp ((hmem z).mpr List.mem_cons_self) with rfl | hz
            · exact le_rfl
            · exact hys.1 z hz
          have hge : key z ≤ key y := by
            rcases List.mem_cons.mp ((hmem y).mp List.mem_cons_self) with rfl | hy
            · exact le_rfl
            · exact hzs.1 y hy
          have hkey : key z = key y := le_antisymm hge hle
          -- The first elements have one key, so each is the first of that key in its list.
          obtain rfl : y = z := by
            have hfirst := hfilter (key y)
            simp only [List.filter_cons, hkey, decide_true, if_true] at hfirst
            exact (List.cons.inj hfirst).1
          have hrest : ∀ k, ys.filter (fun x => key x = k) = zs.filter (fun x => key x = k) := by
            intro k
            have hk := hfilter k
            simp only [List.filter_cons] at hk
            split at hk
            · exact (List.cons.inj hk).2
            · exact hk
          have hmem' : ∀ x, x ∈ ys ↔ x ∈ zs := by
            intro x
            have hx := congrArg (x ∈ ·) (hrest (key x))
            simpa using hx
          rw [ih hys.2 hzs.2 hrest hmem']

theorem StablyOrdered.unique (h : StablyOrdered key xs ys) (h' : StablyOrdered key xs zs) :
    ys = zs :=
  eq_of_ordered_of_filter_eq h.ordered h'.ordered fun k => (h.stable k).trans (h'.stable k).symm

/-- An ordered list is its own stable order. -/
theorem StablyOrdered.refl (h : xs.Pairwise fun a b => key a ≤ key b) :
    StablyOrdered key xs xs :=
  ⟨List.Perm.refl xs, h, fun _ => rfl⟩

/-- Where no two have one key, the order in which they stood leaves no trace. -/
theorem StablyOrdered.eq_of_perm {xs' : List α} (h : StablyOrdered key xs ys)
    (h' : StablyOrdered key xs' zs) (hperm : xs.Perm xs') (hkeys : (xs'.map key).Nodup) :
    ys = zs := by
  have hzs : ys.Perm zs := h.perm.trans (hperm.trans h'.perm.symm)
  apply hzs.eq_of_pairwise _ h.ordered h'.ordered
  intro a b ha hb hab hba
  have ha' : a ∈ xs' := hperm.mem_iff.mp (h.perm.mem_iff.mp ha)
  have hb' : b ∈ xs' := h'.perm.mem_iff.mp hb
  exact List.inj_on_of_nodup_map hkeys ha' hb' (le_antisymm hab hba)

/-- Sorting by merging is stable. -/
theorem stablyOrdered_mergeSort {le : α → α → Bool} (hle : ∀ a b, le a b = true ↔ key a ≤ key b)
    (xs : List α) : StablyOrdered key xs (xs.mergeSort le) := by
  have htrans : ∀ a b c, le a b = true → le b c = true → le a c = true := by
    intro a b c hab hbc
    rw [hle] at *
    exact le_trans hab hbc
  have htotal : ∀ a b, (le a b || le b a) = true := by
    intro a b
    rw [Bool.or_eq_true, hle, hle]
    exact le_total (key a) (key b)
  refine ⟨List.mergeSort_perm xs le, ?ordered, ?stable⟩
  case ordered =>
      exact (List.pairwise_mergeSort htrans htotal xs).imp fun hab => (hle _ _).mp hab
  case stable =>
      intro k
      have hequal : (xs.filter fun x => key x = k).Pairwise fun a b => le a b = true := by
        rw [List.pairwise_filter]
        apply List.pairwise_of_forall
        intro a b ha hb
        rw [hle, of_decide_eq_true ha, of_decide_eq_true hb]
      have hsub := List.sublist_mergeSort htrans htotal hequal List.filter_sublist
      have hfilter := hsub.filter fun x => decide (key x = k)
      rw [List.filter_filter] at hfilter
      simp only [Bool.and_self] at hfilter
      have hlength := ((List.mergeSort_perm xs le).filter fun x => decide (key x = k)).length_eq
      exact (hfilter.eq_of_length hlength.symm).symm

/-- The order by numbers is the stable one. -/
theorem stablyOrdered_sortedByOrdinal (ordinal : α → UInt32) (xs : List α) :
    StablyOrdered (fun x => (ordinal x).toNat) xs (sortedByOrdinal ordinal xs) := by
  apply stablyOrdered_mergeSort
  intro a b
  rw [decide_eq_true_iff, UInt32.le_iff_toNat_le]

/-- Sorting by number twice is sorting once. -/
theorem sortedByOrdinal_idem (ordinal : α → UInt32) (xs : List α) :
    sortedByOrdinal ordinal (sortedByOrdinal ordinal xs) = sortedByOrdinal ordinal xs := by
  have hsorted := stablyOrdered_sortedByOrdinal ordinal xs
  exact (stablyOrdered_sortedByOrdinal ordinal _).unique (StablyOrdered.refl hsorted.ordered)

/-- Items of distinct numbers sort alike in whatever order they are stored. -/
theorem sortedByOrdinal_of_perm {ordinal : α → UInt32} (hperm : xs.Perm ys)
    (hnodup : (xs.map ordinal).Nodup) : sortedByOrdinal ordinal xs = sortedByOrdinal ordinal ys := by
  have hkeys : (xs.map fun x => (ordinal x).toNat).Nodup := by
    have hmap := hnodup.map (f := UInt32.toNat) fun _ _ => UInt32.toNat_inj.mp
    rwa [List.map_map] at hmap
  symm
  exact (stablyOrdered_sortedByOrdinal ordinal ys).eq_of_perm
    (stablyOrdered_sortedByOrdinal ordinal xs) hperm.symm hkeys

end Reconcile
