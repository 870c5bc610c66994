import Reconcile.Task.Tracker
import Mathlib.Data.List.Infix

/-!
# Nodes by their addresses

A node is reached from the root position by position.  Replacing it changes what is found
at its own address and below (`at?_replaceAt_append`), and nothing that any other node
keeps for itself (`state_at?_replaceAt`).  The descendants of a node are the nodes that
stand below it (`mem_descendants`).
-/

namespace Reconcile

namespace Task

variable {t old new : Task} {a b : Address}

theorem at?_cons (i : Nat) (a : Address) (s : TaskState) (cs : List Task) :
    at? (i :: a) (.node s cs) = cs[i]?.bind (at? a) := by
  rw [at?]
  cases cs[i]? with
  | none => rfl
  | some c => rfl

/-- The way to a node goes by the nodes above it. -/
theorem at?_append (a b : Address) (t : Task) : t.at? (a ++ b) = (t.at? a).bind (at? b) := by
  induction a generalizing t with
  | nil => rfl
  | cons i a ih =>
      obtain ⟨s, cs⟩ := t
      rw [List.cons_append, at?_cons, at?_cons, Option.bind_assoc]
      exact congrArg (cs[i]?.bind) (funext ih)

theorem at?_replaceAt (h : t.at? a = some old) :
    (replaceAt new a t).at? a = some new := by
  induction a generalizing t with
  | nil => rfl
  | cons i a ih =>
      obtain ⟨s, cs⟩ := t
      rw [at?_cons] at h
      obtain ⟨c, hc, hrest⟩ := Option.bind_eq_some_iff.mp h
      have hi : i < cs.length := (List.getElem?_eq_some_iff.mp hc).1
      rw [replaceAt, hc]
      simp only
      rw [at?_cons, List.getElem?_set_self hi]
      exact ih hrest

theorem at?_replaceAt_append (h : t.at? a = some old) (b : Address) :
    (replaceAt new a t).at? (a ++ b) = new.at? b := by
  rw [at?_append, at?_replaceAt h, Option.bind_some]

/-- Replacing a subtree changes what a node keeps for itself at most where the subtree
was. -/
theorem state_at?_replaceAt (h : ¬ a <+: b) (t new : Task) :
    ((replaceAt new a t).at? b).map state = (t.at? b).map state := by
  induction a generalizing b t with
  | nil => exact absurd List.nil_prefix h
  | cons i a ih =>
      obtain ⟨s, cs⟩ := t
      cases hc : cs[i]? with
      | none => rw [replaceAt, hc]
      | some c =>
          rw [replaceAt, hc]
          simp only
          cases b with
          | nil => rfl
          | cons j b =>
              rw [at?_cons, at?_cons]
              by_cases hij : i = j
              · subst hij
                have hi : i < cs.length := (List.getElem?_eq_some_iff.mp hc).1
                have hrest : ¬ a <+: b := fun hprefix =>
                  h (List.cons_prefix_cons.mpr ⟨rfl, hprefix⟩)
                rw [List.getElem?_set_self hi, hc]
                exact ih hrest c
              · rw [List.getElem?_set_ne hij]

/-! ## All nodes below a node -/

mutual

/-- The descendants of a node are the nodes that stand below it. -/
theorem mem_descendants : ∀ (t : Task) (a : Address),
    a ∈ t.descendants ↔ a ≠ [] ∧ (t.at? a).isSome
  | .node s cs, a => by
      rw [descendants, mem_descendantsFrom 0 cs a]
      cases a with
      | nil => simp
      | cons i a =>
          rw [at?_cons]
          constructor
          · rintro ⟨j, b, hsame, hstands⟩
            cases hsame
            rw [Nat.zero_add]
            exact ⟨by simp, hstands⟩
          · rintro ⟨-, hstands⟩
            exact ⟨i, a, by simp, hstands⟩

theorem mem_descendantsFrom : ∀ (i : Nat) (cs : List Task) (a : Address),
    a ∈ descendantsFrom i cs ↔ ∃ j b, a = (i + j) :: b ∧ (cs[j]?.bind (at? b)).isSome
  | i, [], a => by simp [descendantsFrom]
  | i, c :: cs, a => by
      rw [descendantsFrom, List.mem_append, List.mem_map, List.mem_cons,
        mem_descendantsFrom (i + 1) cs a]
      constructor
      · rintro (⟨b, hb, rfl⟩ | rfl | ⟨j, b, rfl, hstands⟩)
        · exact ⟨0, b, rfl, ((mem_descendants c b).mp hb).2⟩
        · exact ⟨0, [], rfl, rfl⟩
        · refine ⟨j + 1, b, ?_, hstands⟩
          rw [Nat.add_right_comm, Nat.add_assoc]
      · rintro ⟨j, b, rfl, hstands⟩
        cases j with
        | zero =>
            cases b with
            | nil => exact Or.inr (Or.inl rfl)
            | cons k b =>
                refine Or.inl ⟨k :: b, (mem_descendants c _).mpr ⟨by simp, hstands⟩, rfl⟩
        | succ j =>
            refine Or.inr (Or.inr ⟨j, b, ?_, hstands⟩)
            rw [Nat.add_right_comm, Nat.add_assoc]

end

end Task

end Reconcile
