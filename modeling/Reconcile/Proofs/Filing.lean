import Reconcile.Crawl.Crawler
import Reconcile.Proofs.Keys
import Mathlib.Data.List.Induction

/-!
# What a model holds

A model is made by filing objects one after another, each in the category that it belongs
to, which for a routine is that of its kind, whatever it was returned as.  In the end
there is for every category and key just the object that was filed last
(`Model.HoldsExactly`, `holdsExactly_foldl`).
-/

namespace Reconcile

/-- An object of any category, with its category. -/
abbrev Filed : Type := (c : Category) × c.Object

namespace Category

/-- A routine with the category of its kind. -/
def ownRoutine (r : Routine) : Filed :=
  match r.kind with
  | .function => ⟨.function, r⟩
  | .procedure => ⟨.procedure, r⟩

/-- An object that was found in category `c`, with the category that it belongs to. -/
def own : (c : Category) → c.Object → Filed
  | .sequence, s => ⟨.sequence, s⟩
  | .table, t => ⟨.table, t⟩
  | .view, v => ⟨.view, v⟩
  | .function, r => ownRoutine r
  | .procedure, r => ownRoutine r

end Category

/-- The object belongs under that category and key. -/
def Filed.At (d : Category) (k : Key) (x : Filed) : Prop :=
  x.1 = d ∧ x.1.keyOf x.2 = k

/-- Of the objects with that category and key the last one is `y`. -/
def Filed.Last (found : List Filed) (d : Category) (k : Key) (y : d.Object) : Prop :=
  ∃ before after, found = before ++ ⟨d, y⟩ :: after ∧ d.keyOf y = k
    ∧ ∀ x ∈ after, ¬ Filed.At d k x

namespace Model

variable {m : Model} {d : Category} {k : Key} {y : d.Object}

/-- The objects of the model are those found, the last one of each category and key. -/
structure HoldsExactly (m : Model) (found : List Filed) : Prop where
  ordered : m.Ordered
  last : ∀ d k y, (m.objects d).find? k = some y ↔ Filed.Last found d k y

/-- Files an object in its category. -/
def file (m : Model) : Filed → Model
  | ⟨.sequence, s⟩ => m.addSequence s
  | ⟨.table, t⟩ => m.addTable t
  | ⟨.view, v⟩ => m.addView v
  | ⟨.function, r⟩ => { m with functions := m.functions.insert r.key r }
  | ⟨.procedure, r⟩ => { m with procedures := m.procedures.insert r.key r }

theorem addRoutine_eq (m : Model) (r : Routine) :
    m.addRoutine r = m.file (Category.ownRoutine r) := by
  unfold addRoutine Category.ownRoutine
  cases r.kind <;> rfl

/-- What was found in a category is filed where it belongs. -/
theorem add_eq (m : Model) (c : Category) (x : c.Object) : m.add c x = m.file (c.own x) := by
  cases c with
  | sequence => rfl
  | table => rfl
  | view => rfl
  | function => exact m.addRoutine_eq x
  | procedure => exact m.addRoutine_eq x

theorem objects_file_self (m : Model) (y : d.Object) :
    (m.file ⟨d, y⟩).objects d = (m.objects d).insert (d.keyOf y) y := by
  cases d <;> rfl

theorem objects_file_of_ne {c : Category} (m : Model) (x : c.Object) (h : c ≠ d) :
    (m.file ⟨c, x⟩).objects d = m.objects d := by
  cases c <;> cases d <;> first | rfl | exact absurd rfl h

theorem file_beside (m : Model) (x : Filed) :
    (m.file x).dialect = m.dialect ∧ (m.file x).database = m.database := by
  obtain ⟨c, x⟩ := x
  cases c <;> exact ⟨rfl, rfl⟩

/-- Filing an object changes what is found where it belongs, and nowhere else. -/
theorem find?_file (m : Model) (x : Filed) :
    ((m.file x).objects d).find? k = some y
      ↔ (x = ⟨d, y⟩ ∧ d.keyOf y = k) ∨ (¬ Filed.At d k x ∧ (m.objects d).find? k = some y) := by
  obtain ⟨c, x⟩ := x
  by_cases hc : c = d
  · subst hc
    rw [objects_file_self, Keyed.find?_insert]
    by_cases hk : c.keyOf x = k
    · rw [if_pos hk]
      have hat : Filed.At c k ⟨c, x⟩ := ⟨rfl, hk⟩
      constructor
      · intro hsome
        cases hsome
        exact Or.inl ⟨rfl, hk⟩
      · rintro (⟨hsame, -⟩ | ⟨hnot, -⟩)
        · cases hsame
          rfl
        · exact absurd hat hnot
    · rw [if_neg hk]
      have hnot : ¬ Filed.At c k ⟨c, x⟩ := fun hat => hk hat.2
      constructor
      · exact fun hfound => Or.inr ⟨hnot, hfound⟩
      · rintro (⟨hsame, hkey⟩ | ⟨-, hfound⟩)
        · cases hsame
          exact absurd hkey hk
        · exact hfound
  · rw [objects_file_of_ne m x hc]
    have hnot : ¬ Filed.At d k ⟨c, x⟩ := fun hat => hc hat.1
    constructor
    · exact fun hfound => Or.inr ⟨hnot, hfound⟩
    · rintro (⟨hsame, -⟩ | ⟨-, hfound⟩)
      · exact absurd (congrArg Sigma.fst hsame) hc
      · exact hfound

theorem foldl_file_beside (found : List Filed) (m : Model) :
    (found.foldl file m).dialect = m.dialect ∧ (found.foldl file m).database = m.database := by
  induction found generalizing m with
  | nil => exact ⟨rfl, rfl⟩
  | cons x rest ih =>
      obtain ⟨hdialect, hdatabase⟩ := m.file_beside x
      obtain ⟨hdialect', hdatabase'⟩ := ih (m.file x)
      exact ⟨hdialect'.trans hdialect, hdatabase'.trans hdatabase⟩

theorem ordered_file (h : m.Ordered) (x : Filed) : (m.file x).Ordered := by
  obtain ⟨c, x⟩ := x
  intro d
  by_cases hc : c = d
  · subst hc
    rw [objects_file_self]
    exact (h c).insert _ _
  · rw [objects_file_of_ne m x hc]
    exact h d

/-- Filing into an empty model leaves the last object of each category and key. -/
theorem holdsExactly_foldl (dialect : Dialect) (database : String) (found : List Filed) :
    (found.foldl file { dialect, database }).HoldsExactly found := by
  induction found using List.reverseRecOn with
  | nil =>
      refine ⟨ordered_empty dialect database, fun d k y => ?_⟩
      constructor
      · intro hfound
        cases d <;> cases hfound
      · rintro ⟨before, after, hsplit, -⟩
        simp at hsplit
  | append_singleton found x ih =>
      rw [List.foldl_append, List.foldl_cons, List.foldl_nil]
      refine ⟨ordered_file ih.ordered x, fun d k y => ?_⟩
      rw [find?_file, ih.last]
      constructor
      · rintro (⟨rfl, hkey⟩ | ⟨hnot, before, after, rfl, hkey, hafter⟩)
        · exact ⟨found, [], rfl, hkey, by simp⟩
        · refine ⟨before, after ++ [x], by simp, hkey, ?_⟩
          intro z hz
          rcases List.mem_append.mp hz with hz | hz
          · exact hafter z hz
          · rw [List.mem_singleton.mp hz]
            exact hnot
      · -- The last object with its category and key is the one just filed, or comes before it.
        rintro ⟨before, after, hsplit, hkey, hafter⟩
        rcases List.eq_nil_or_concat after with rfl | ⟨later, z, rfl⟩
        · have hlast := List.append_inj_right' hsplit rfl
          exact Or.inl ⟨List.singleton_inj.mp hlast, hkey⟩
        · rw [List.concat_eq_append, ← List.cons_append, ← List.append_assoc] at hsplit
          have hlast := List.singleton_inj.mp (List.append_inj_right' hsplit rfl)
          have hfront := List.append_inj_left' hsplit rfl
          subst hlast
          refine Or.inr ⟨hafter x (by simp), before, later, hfront, hkey, fun w hw => ?_⟩
          exact hafter w (by simp [hw])

end Model

end Reconcile
