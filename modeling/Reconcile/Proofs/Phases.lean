import Reconcile.Script.Consolidated
import Reconcile.Proofs.Plans

/-!
# What the phases gather

A phase takes one part of the plans of one category.  `mem_gather` says what it
holds: a statement is there just if an item that differs has a plan with that
statement in that part.  Foreign keys are dropped in a phase of their own that two
sources feed; `firsts` keeps one of each text (`firsts_nodup`) and loses none
(`mem_firsts`).
-/

namespace Reconcile

/-! ## The first of equal statements -/

theorem mem_firsts {x : String} {xs : List String} : x ∈ firsts xs ↔ x ∈ xs := by
  induction xs with
  | nil => rfl
  | cons y ys ih =>
      rw [firsts, List.mem_cons, List.mem_cons, List.mem_filter, ih]
      by_cases hxy : x = y
      · simp [hxy]
      · simp [hxy]

theorem firsts_nodup (xs : List String) : (firsts xs).Nodup := by
  induction xs with
  | nil => exact List.nodup_nil
  | cons y ys ih =>
      rw [firsts, List.nodup_cons]
      constructor
      · simp
      · exact ih.filter _

/-! ## Order within a script -/

section Order

variable {α : Type} {a b : α} {early late before after : List α}

/-- Wherever `b` stands in the list, `a` stands before it. -/
def Precedes (a b : α) (xs : List α) : Prop :=
  ∀ before after, xs = before ++ b :: after → a ∈ before

/-- What stands outside of a part stands after the whole of it. -/
theorem prefix_of_notMem (h : early ++ late = before ++ b :: after)
    (hb : b ∉ early) : early <+: before := by
  rcases List.append_eq_append_iff.mp h with ⟨mid, hbefore, -⟩ | ⟨mid, hearly, hlate⟩
  · exact ⟨mid, hbefore.symm⟩
  · cases mid with
    | nil => exact ⟨[], by rw [hearly, List.append_nil, List.append_nil]⟩
    | cons c cs =>
        obtain ⟨rfl, -⟩ := List.cons.inj hlate
        exact absurd (by rw [hearly]; simp) hb

theorem Precedes.of_append (ha : a ∈ early) (hb : b ∉ early) :
    Precedes a b (early ++ late) := by
  intro before after h
  exact (prefix_of_notMem h hb).subset ha

end Order

/-! ## Plans of a comparison -/

namespace Comparison

variable {s : Spelling} {d : Direction} {r : Comparison} {c : Category} {p : Plan}
  {part : Plan → List String} {text : String}

/-- The plans of a category, without the positions that go with them. -/
theorem plans_eq (s : Spelling) (d : Direction) (r : Comparison) (c : Category) :
    r.plans s d c
      = ((r.items c).filter (·.state != .unchanged)).filterMap
          fun i => (i.plan s d).toOption := by
  unfold plans outcomes
  rw [List.filterMap_map]
  have hfilter : ((r.items c).filter (·.state != .unchanged))
      = ((r.items c).zipIdx.filter fun x => x.1.state != .unchanged).map Prod.fst := by
    conv_lhs => rw [← List.zipIdx_map_fst 0 (r.items c)]
    rw [List.filter_map]
    rfl
  rw [hfilter, List.filterMap_map]
  rfl

theorem mem_plans :
    p ∈ r.plans s d c ↔ ∃ i ∈ r.items c, i.state ≠ .unchanged ∧ i.plan s d = .ok p := by
  rw [plans_eq, List.mem_filterMap]
  constructor
  · rintro ⟨i, hi, hp⟩
    obtain ⟨hmem, hstate⟩ := List.mem_filter.mp hi
    refine ⟨i, hmem, by simpa using hstate, ?_⟩
    cases hplan : i.plan s d with
    | error e => simp [hplan, Except.toOption] at hp
    | ok q =>
        rw [hplan] at hp
        cases hp
        rfl
  · rintro ⟨i, hmem, hstate, hp⟩
    refine ⟨i, List.mem_filter.mpr ⟨hmem, by simpa using hstate⟩, ?_⟩
    rw [hp]
    rfl

theorem mem_gather :
    text ∈ r.gather s d part c ↔ ∃ i ∈ r.items c, i.state ≠ .unchanged
      ∧ ∃ p, i.plan s d = .ok p ∧ text ∈ part p := by
  unfold gather
  rw [List.mem_flatMap]
  constructor
  · rintro ⟨p, hp, htext⟩
    obtain ⟨i, hi, hstate, hplan⟩ := mem_plans.mp hp
    exact ⟨i, hi, hstate, p, hplan, htext⟩
  · rintro ⟨i, hi, hstate, p, hplan, htext⟩
    exact ⟨p, mem_plans.mpr ⟨i, hi, hstate, hplan⟩, htext⟩

theorem mem_danglingDrops :
    text ∈ r.danglingDrops s d ↔ ∃ i ∈ r.tables, i.stateFor d ≠ .deleted
      ∧ ∃ t, i.current d = some t ∧ ∃ fk ∈ t.foreignKeys,
        fk.referencedKey ∈ r.droppedTables d ∧ text = s.dropForeignKey t fk := by
  unfold danglingDrops
  rw [List.mem_flatMap]
  constructor
  · rintro ⟨i, hi, htext⟩
    obtain ⟨hmem, hstate⟩ := List.mem_filter.mp hi
    refine ⟨i, hmem, by simpa using hstate, ?_⟩
    cases hcurrent : i.current d with
    | none =>
        rw [hcurrent] at htext
        cases htext
    | some t =>
        rw [hcurrent] at htext
        obtain ⟨fk, hfk, rfl⟩ := List.mem_map.mp htext
        obtain ⟨hown, hgone⟩ := List.mem_filter.mp hfk
        exact ⟨t, rfl, fk, hown, by simpa using hgone, rfl⟩
  · rintro ⟨i, hmem, hstate, t, hcurrent, fk, hown, hgone, rfl⟩
    refine ⟨i, List.mem_filter.mpr ⟨hmem, by simpa using hstate⟩, ?_⟩
    rw [hcurrent]
    exact List.mem_map.mpr ⟨fk, List.mem_filter.mpr ⟨hown, by simpa using hgone⟩, rfl⟩

theorem mem_droppedTables {k : Key} :
    k ∈ r.droppedTables d ↔ ∃ i ∈ r.tables, i.stateFor d = .deleted ∧ i.key = k := by
  simp [droppedTables, and_assoc]

theorem mem_foreignKeyDrops :
    text ∈ r.foreignKeyDrops s d
      ↔ text ∈ r.gather s d Plan.dropForeignKeys .table ∨ text ∈ r.danglingDrops s d := by
  unfold foreignKeyDrops
  rw [mem_firsts, List.mem_append]

end Comparison

end Reconcile
