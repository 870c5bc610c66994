import Reconcile.Proofs.Annotating
import Reconcile.Proofs.Runs
import Reconcile.Proofs.ForeignKeySafety
import Mathlib.Data.List.Perm.Basic

/-!
# Accounting for a consolidated script

A script is filled phase by phase, each phase from one part of the plans of one
category.  Counted item by item the same statements come out: `Item.contribution`
is what an item brings in beside the drops of its foreign keys, and the script is a
permutation of all contributions and the drops of foreign keys, each of the latter
once.  So nothing is lost or said twice on the way through the phases, and an item
without a plan brings in nothing.

What was left out is also reported.  `scripting_accounts_for_items` puts the two
together.
-/

namespace Reconcile

/-- The statements of a plan beside those that drop foreign keys. -/
def Plan.afterKeyDrops (p : Plan) : List String :=
  p.dropIndexes ++ p.drops ++ p.creates ++ p.createIndexes ++ p.createForeignKeys

theorem Plan.statements_eq (p : Plan) :
    p.statements = p.dropForeignKeys ++ p.afterKeyDrops := by
  simp [statements, afterKeyDrops]

/-- What an item brings into a consolidated script beside drops of foreign keys. -/
def Item.contribution {c : Category} (s : Spelling) (d : Direction) (i : Item c) :
    List String :=
  if i.state = .unchanged then []
  else
    match i.plan s d with
    | .ok p => p.afterKeyDrops
    | .error _ => []

namespace Comparison

/-- A script has to drop a foreign key by that statement: a plan says so, or a table
that stays has a key that points at one that goes. -/
def DropsKey (s : Spelling) (d : Direction) (r : Comparison) (text : String) : Prop :=
  (∃ c, ∃ i ∈ r.items c, i.state ≠ .unchanged
    ∧ ∃ p, i.plan s d = .ok p ∧ text ∈ p.dropForeignKeys)
  ∨ ∃ owner ∈ r.tables, owner.stateFor d ≠ .deleted
    ∧ ∃ t, owner.current d = some t ∧ ∃ fk ∈ t.foreignKeys,
      (∃ gone ∈ r.tables, gone.stateFor d = .deleted ∧ gone.key = fk.referencedKey)
      ∧ text = s.dropForeignKey t fk

/-- Every statement of a script is accounted for by an item or a foreign key, and the
other way round. -/
structure Accounted (s : Spelling) (d : Direction) (r : Comparison) : Prop where
  union : ∃ keyDrops : List String,
    keyDrops.Nodup ∧ (∀ text, text ∈ keyDrops ↔ r.DropsKey s d text)
    ∧ (r.statements s d).Perm
        (keyDrops ++ Category.all.flatMap fun c =>
          (r.items c).flatMap (Item.contribution s d))
  /-- A modified view or routine is dropped and created anew, or left alone. -/
  replaced : ∀ c ∈ [Category.view, .function, .procedure], ∀ i ∈ r.items c,
    i.state = .modified →
      i.contribution s d = []
      ∨ ∃ desired current drop create,
          i.desired d = some desired ∧ i.current d = some current
          ∧ c.planDrop s current = .ok (.dropping drop)
          ∧ c.planCreate s desired = .ok (.creating [create])
          ∧ i.contribution s d = [drop, create]

variable {s : Spelling} {d : Direction} {r : Comparison} {c : Category}

/-! ## Drops of foreign keys -/

theorem gather_eq_nil (part : Plan → List String)
    (h : ∀ i ∈ r.items c, ∀ p, i.plan s d = .ok p → part p = []) :
    r.gather s d part c = [] := by
  refine List.eq_nil_iff_forall_not_mem.mpr fun text hmem => ?_
  obtain ⟨i, hi, -, p, hp, htext⟩ := mem_gather.mp hmem
  rw [h i hi p hp] at htext
  cases htext

/-- Only tables have foreign keys to drop. -/
theorem dropForeignKeys_eq_nil (hc : c ≠ .table) (i : Item c) {p : Plan}
    (h : i.plan s d = .ok p) : p.dropForeignKeys = [] := by
  cases c with
  | table => exact absurd rfl hc
  | sequence => exact (Item.plan_plain_sequence h).dropForeignKeys
  | view => exact (Item.plan_plain_view h).dropForeignKeys
  | function => exact (Item.plan_plain_routine (.inl rfl) h).dropForeignKeys
  | procedure => exact (Item.plan_plain_routine (.inr rfl) h).dropForeignKeys

theorem mem_foreignKeyDrops_iff {text : String} :
    text ∈ r.foreignKeyDrops s d ↔ r.DropsKey s d text := by
  rw [mem_foreignKeyDrops, mem_gather, mem_danglingDrops]
  refine or_congr ?_ ?_
  · constructor
    · rintro ⟨i, hi, hstate, hplan⟩
      exact ⟨.table, i, hi, hstate, hplan⟩
    · rintro ⟨c, i, hi, hstate, p, hp, htext⟩
      by_cases hc : c = .table
      · subst hc
        exact ⟨i, hi, hstate, p, hp, htext⟩
      · rw [dropForeignKeys_eq_nil hc i hp] at htext
        cases htext
  · simp only [mem_droppedTables]

/-! ## Item by item -/

theorem flatMap_contribution (s : Spelling) (d : Direction) (r : Comparison)
    (c : Category) :
    (r.items c).flatMap (Item.contribution s d)
      = r.gather s d Plan.afterKeyDrops c := by
  unfold gather
  rw [plans_eq]
  induction r.items c with
  | nil => rfl
  | cons i rest ih =>
      rw [List.flatMap_cons, ih, List.filter_cons]
      by_cases hstate : i.state = .unchanged
      · simp [Item.contribution, hstate]
      · cases hplan : i.plan s d <;>
          simp [Item.contribution, hstate, hplan, Except.toOption]

/-- What a category brings in, part by part. -/
theorem gather_afterKeyDrops_perm (s : Spelling) (d : Direction) (r : Comparison)
    (c : Category) :
    (r.gather s d Plan.afterKeyDrops c).Perm
      (r.gather s d Plan.dropIndexes c ++ r.gather s d Plan.drops c
        ++ r.gather s d Plan.creates c ++ r.gather s d Plan.createIndexes c
        ++ r.gather s d Plan.createForeignKeys c) := by
  unfold gather Plan.afterKeyDrops
  refine (List.flatMap_append_perm _ _ _).symm.trans (List.Perm.append_right _ ?_)
  refine (List.flatMap_append_perm _ _ _).symm.trans (List.Perm.append_right _ ?_)
  refine (List.flatMap_append_perm _ _ _).symm.trans (List.Perm.append_right _ ?_)
  exact (List.flatMap_append_perm _ _ _).symm

/-- Where plans are plain, a category brings in its drops and its creations. -/
theorem gather_afterKeyDrops_plain {Drop Create : String → Prop}
    (h : ∀ i ∈ r.items c, ∀ p, i.plan s d = .ok p → p.Plain Drop Create) :
    (r.gather s d Plan.afterKeyDrops c).Perm
      (r.gather s d Plan.drops c ++ r.gather s d Plan.creates c) := by
  have hperm := gather_afterKeyDrops_perm s d r c
  rw [gather_eq_nil Plan.dropIndexes fun i hi p hp => (h i hi p hp).dropIndexes,
    gather_eq_nil Plan.createIndexes fun i hi p hp => (h i hi p hp).createIndexes,
    gather_eq_nil Plan.createForeignKeys fun i hi p hp =>
      (h i hi p hp).createForeignKeys] at hperm
  simpa using hperm

/-- The phases hold what the categories bring in and the drops of foreign keys. -/
theorem statements_perm (s : Spelling) (d : Direction) (r : Comparison) :
    (r.statements s d).Perm
      (r.foreignKeyDrops s d ++ Category.all.flatMap (r.gather s d Plan.afterKeyDrops)) := by
  have htable := gather_afterKeyDrops_perm s d r .table
  have hsequence := gather_afterKeyDrops_plain (s := s) (d := d) (r := r)
    (c := .sequence) fun i _ p hp => Item.plan_plain_sequence hp
  have hview := gather_afterKeyDrops_plain (s := s) (d := d) (r := r)
    (c := .view) fun i _ p hp => Item.plan_plain_view hp
  have hfunction := gather_afterKeyDrops_plain (s := s) (d := d) (r := r)
    (c := .function) fun i _ p hp => Item.plan_plain_routine (.inl rfl) hp
  have hprocedure := gather_afterKeyDrops_plain (s := s) (d := d) (r := r)
    (c := .procedure) fun i _ p hp => Item.plan_plain_routine (.inr rfl) hp
  -- Both sides hold the same parts; compare how often a statement occurs.
  refine List.perm_iff_count.mpr fun text => ?_
  have h₁ := htable.count_eq text
  have h₂ := hsequence.count_eq text
  have h₃ := hview.count_eq text
  have h₄ := hfunction.count_eq text
  have h₅ := hprocedure.count_eq text
  simp only [List.count_append] at h₁ h₂ h₃ h₄ h₅
  simp only [statements, phases, Category.all, List.flatten_cons, List.flatten_nil,
    List.flatMap_cons, List.flatMap_nil, List.append_nil, List.count_append]
  omega

/-! ## What is replaced -/

/-- A modified item brings in the whole of its alteration or nothing. -/
theorem contribution_of_modified {i : Item c} (h : i.state = .modified) :
    i.contribution s d = []
    ∨ ∃ desired current p, i.desired d = some desired ∧ i.current d = some current
      ∧ c.planAlter s desired current = .ok p ∧ i.contribution s d = p.afterKeyDrops := by
  have hstate : i.stateFor d = .modified := by
    cases d <;> simp [Item.stateFor, h, DiffState.reversed]
  cases hplan : i.plan s d with
  | error e => exact Or.inl (by simp [Item.contribution, h, hplan])
  | ok p =>
      refine Or.inr ?_
      rcases i.plan_cases hplan with ⟨_, hadded, -⟩ | ⟨_, hdeleted, -⟩
        | ⟨desired, current, -, hdesired, hcurrent, hp⟩ | ⟨hunchanged, -⟩
      · rw [hstate] at hadded
        cases hadded
      · rw [hstate] at hdeleted
        cases hdeleted
      · refine ⟨desired, current, p, hdesired, hcurrent, hp, ?_⟩
        simp [Item.contribution, h, hplan]
      · rw [hstate] at hunchanged
        cases hunchanged

/-- A plan to replace an object drops and creates it as the plans for either do. -/
theorem planAlter_of_replaced (hc : c ∈ [Category.view, .function, .procedure])
    {desired current : c.Object} {p : Plan}
    (h : c.planAlter s desired current = .ok p) :
    ∃ drop create, p = .replacing drop create
      ∧ c.planDrop s current = .ok (.dropping drop)
      ∧ c.planCreate s desired = .ok (.creating [create]) := by
  simp only [List.mem_cons, List.not_mem_nil, or_false] at hc
  rcases hc with rfl | rfl | rfl
  all_goals
    obtain ⟨create, hcreate, rfl⟩ := map_eq_ok.mp h
    exact ⟨_, create, rfl, rfl, map_eq_ok.mpr ⟨create, hcreate, rfl⟩⟩

/-- Every script of every comparison is accounted for, item by item. -/
theorem accounted (s : Spelling) (d : Direction) (r : Comparison) : r.Accounted s d := by
  refine ⟨?union, ?replaced⟩
  case union =>
      refine ⟨r.foreignKeyDrops s d, firsts_nodup _, fun text => mem_foreignKeyDrops_iff, ?_⟩
      simp only [flatMap_contribution]
      exact statements_perm s d r
  case replaced =>
      intro c hc i _ hstate
      refine (contribution_of_modified hstate).imp_right ?_
      rintro ⟨desired, current, p, hdesired, hcurrent, hp, hall⟩
      obtain ⟨drop, create, rfl, hdrop, hcreate⟩ := planAlter_of_replaced hc hp
      exact ⟨desired, current, drop, create, hdesired, hcurrent, hdrop, hcreate, hall⟩

/-! ## What is left out is reported -/

theorem scripted_fault_of_error {i : Item c} {fault : ScriptFault}
    (h : i.plan s d = .error fault) : (i.scripted s).fault.isSome := by
  unfold Item.scripted
  rw [Item.noted_fault_isSome, Item.noted_fault_isSome]
  have hfault := Item.planFault_eq_some.mpr h
  cases d with
  | sourceToTarget => exact Or.inl (Or.inr (by rw [hfault]; rfl))
  | targetToSource => exact Or.inr (by rw [hfault]; rfl)

/-- Either script of a comparison is what its items bring in and the foreign keys to
drop.  A run that succeeds answers the comparison with these two scripts and with a
fault on every item that either one leaves out. -/
theorem scripting_accounts_for_items (s : Spelling) (r : Comparison) :
    (∀ d, r.Accounted s d)
    ∧ (∀ task polls tr r' tr',
        (scriptComparison s r task polls).run tr = ((r', .ok ()), tr') → r' = r.scripted s)
    ∧ (∀ d, (r.scripted s).script d = some (s.render (r.statements s d)))
    ∧ ∀ (c : Category) (n : Nat) (i : Item c), (r.items c)[n]? = some i →
        ∀ d fault, i.plan s d = .error fault →
          ∃ i', ((r.scripted s).items c)[n]? = some i' ∧ i'.key = i.key
            ∧ i'.fault.isSome := by
  refine ⟨fun d => accounted s d r, fun _ _ _ _ _ hrun => scriptComparison_ok hrun,
    fun d => script_scripted s d r, ?_⟩
  intro c n i hi d fault hplan
  refine ⟨i.scripted s, ?_, by simp [Item.scripted], scripted_fault_of_error hplan⟩
  rw [items_scripted, List.getElem?_map, hi]
  rfl

end Comparison

end Reconcile
