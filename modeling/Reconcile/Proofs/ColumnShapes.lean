import Reconcile.Script.SqlServer
import Mathlib.Data.List.Basic

/-!
# Reading the shape of a column back

SQL Server restates type, collation and nullability of a column in one text, and whether a
column is restated is decided by comparing two such texts.  The text tells the three apart
by the blanks between them: up to the first blank it is the type, and after the word
COLLATE and up to the next blank it is the collation.  So it says as much as the three do
where neither types nor collations hold a blank (`Column.Unspaced`), as in `int` and
`Latin1_General_CI_AS`.
-/

namespace Reconcile

/-- No blank stands in the type of a column or in its collation. -/
def Column.Unspaced (c : Column) : Prop :=
  ' ' ∉ c.dataType.toList ∧ ∀ collation ∈ c.collation, ' ' ∉ collation.toList

instance (c : Column) : Decidable c.Unspaced := by
  unfold Column.Unspaced
  infer_instance

/-- Scripts tell collations apart unless they ignore them. -/
theorem Column.scriptedCollation_eq_iff {o : Options} {a b : Column} :
    a.scriptedCollation o = b.scriptedCollation o
      ↔ o.ignoreCollate = true ∨ a.collation = b.collation := by
  unfold scriptedCollation
  cases o.ignoreCollate <;> simp

/-- Where an element stands for the first time is where a list is split. -/
theorem append_cons_inj_left {α : Type} {x : α} {as bs r r' : List α} (ha : x ∉ as)
    (hb : x ∉ bs) (h : as ++ x :: r = bs ++ x :: r') : as = bs ∧ r = r' := by
  induction as generalizing bs with
  | nil =>
      cases bs with
      | nil => exact ⟨rfl, (List.cons.inj h).2⟩
      | cons b bs => exact absurd ((List.cons.inj h).1 ▸ List.mem_cons_self) hb
  | cons a as ih =>
      cases bs with
      | nil => exact absurd ((List.cons.inj h).1 ▸ List.mem_cons_self) ha
      | cons b bs =>
          obtain ⟨rfl, hrest⟩ := List.cons.inj h
          obtain ⟨rfl, hr⟩ := ih (fun hx => ha (List.mem_cons_of_mem _ hx))
            (fun hx => hb (List.mem_cons_of_mem _ hx)) hrest
          exact ⟨rfl, hr⟩

namespace SqlServer

variable {o : Options}

/-- The words for nullability, without the blank in front of them. -/
def nullWords (nullable : Bool) : List Char :=
  if nullable then ['N', 'U', 'L', 'L'] else ['N', 'O', 'T', ' ', 'N', 'U', 'L', 'L']

theorem nullWords_inj : ∀ {n m : Bool}, nullWords n = nullWords m → n = m := by
  decide

/-- The text of a shape behind the type and the blank after it. -/
def afterType (nullable : Bool) : Option String → List Char
  | none => nullWords nullable
  | some name =>
      ['C', 'O', 'L', 'L', 'A', 'T', 'E', ' '] ++ (name.toList ++ ' ' :: nullWords nullable)

theorem toList_shape (dataType : String) (collation : Option String) (nullable : Bool) :
    (shape dataType collation nullable).toList
      = dataType.toList ++ ' ' :: afterType nullable collation := by
  unfold shape collateClause nullability
  cases collation <;> cases nullable <;> simp [toString, afterType, nullWords]

/-- No word for nullability starts like the word that precedes a collation. -/
theorem afterType_none_ne_some (n m : Bool) (name : String) :
    afterType n none ≠ afterType m (some name) := by
  cases n <;> simp [afterType, nullWords]

theorem afterType_inj {x y : Option String} {n m : Bool}
    (hx : ∀ name ∈ x, ' ' ∉ name.toList) (hy : ∀ name ∈ y, ' ' ∉ name.toList)
    (h : afterType n x = afterType m y) : x = y ∧ n = m := by
  cases x with
  | none =>
      cases y with
      | none => exact ⟨rfl, nullWords_inj h⟩
      | some name => exact absurd h (afterType_none_ne_some n m name)
  | some name =>
      cases y with
      | none => exact absurd h.symm (afterType_none_ne_some m n name)
      | some name' =>
          obtain ⟨hname, hrest⟩ := append_cons_inj_left (hx name rfl) (hy name' rfl)
            (List.append_cancel_left h)
          exact ⟨congrArg some (String.toList_inj.mp hname), nullWords_inj hrest⟩

/-- Type, collation and nullability can be read back from the text that states them. -/
theorem shape_inj {a b : String} {x y : Option String} {n m : Bool} (ha : ' ' ∉ a.toList)
    (hb : ' ' ∉ b.toList) (hx : ∀ name ∈ x, ' ' ∉ name.toList)
    (hy : ∀ name ∈ y, ' ' ∉ name.toList) (h : shape a x n = shape b y m) :
    a = b ∧ x = y ∧ n = m := by
  have hchars := congrArg String.toList h
  rw [toList_shape, toList_shape] at hchars
  obtain ⟨htype, hrest⟩ := append_cons_inj_left ha hb hchars
  exact ⟨String.toList_inj.mp htype, afterType_inj hx hy hrest⟩

theorem scriptedCollation_unspaced {c : Column} (h : c.Unspaced) :
    ∀ name ∈ c.scriptedCollation o, ' ' ∉ name.toList := by
  unfold Column.scriptedCollation
  split
  · simp
  · exact h.2

/-- Two columns have the same shape just if they agree in type and nullability, and in
their collations unless those are ignored. -/
theorem columnShape_eq_iff {a b : Column} (ha : a.Unspaced) (hb : b.Unspaced) :
    columnShape o a = columnShape o b ↔
      a.dataType = b.dataType ∧ a.scriptedCollation o = b.scriptedCollation o
        ∧ a.nullable = b.nullable := by
  constructor
  · exact shape_inj ha.1 hb.1 (scriptedCollation_unspaced ha) (scriptedCollation_unspaced hb)
  · rintro ⟨htype, hcollation, hnullable⟩
    rw [columnShape, columnShape, htype, hcollation, hnullable]

/-- A blank in a type can make two columns look the same. -/
example : shape "int COLLATE x" none true = shape "int" (some "x") true := by decide

end SqlServer

end Reconcile
