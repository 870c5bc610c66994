import Reconcile.Proofs.Operations

/-!
# The tasks of the categories

A crawl and a comparison both give every category a subtask, work through them in order,
and stop those that are left when they are cancelled.  The subtasks stand behind whatever
subtasks the task had (`addCategories_ok`), and stopping them leaves those as they are
(`cancelUnfinished_siblings`).
-/

namespace Reconcile

namespace Category

/-- Categories with the addresses of their tasks, where these are added behind `n` others. -/
def tasksFrom (a : Address) (n : Nat) : List Category → List (Category × Address)
  | [] => []
  | c :: rest => (c, a ++ [n]) :: tasksFrom a (n + 1) rest

theorem mem_tasksFrom {a b : Address} {n : Nat} {cats : List Category} :
    b ∈ (tasksFrom a n cats).map Prod.snd ↔ ∃ i < cats.length, b = a ++ [n + i] := by
  induction cats generalizing n with
  | nil => simp [tasksFrom]
  | cons c rest ih =>
      rw [tasksFrom, List.map_cons, List.mem_cons, ih]
      constructor
      · rintro (rfl | ⟨i, hi, rfl⟩)
        · exact ⟨0, by simp, rfl⟩
        · refine ⟨i + 1, by simpa using hi, ?_⟩
          rw [Nat.add_assoc, Nat.add_comm 1 i]
      · rintro ⟨i, hi, rfl⟩
        cases i with
        | zero => exact Or.inl rfl
        | succ i =>
            refine Or.inr ⟨i, by simpa using hi, ?_⟩
            rw [Nat.add_assoc, Nat.add_comm 1 i]

/-- The subtasks of categories that all stand at one status. -/
def standing (status : Status) (cats : List Category) : List (String × Status) :=
  cats.map fun c => (c.label, status)

/-- Categories whose tasks were never started, once they were stopped. -/
theorem standing_stopped (cats : List Category) :
    (cats.map fun c => (TaskState.fresh c.label 1).stopped).map (fun k => (k.name, k.status))
      = standing .cancelled cats := by
  rw [List.map_map]
  rfl

end Category

namespace Tracked

open Tracker (Confined SameOn)

variable {a : Address} {tr : Tracker} {s : TaskState} {kids old : List TaskState}

theorem addAll_ok (cats : List Category) (h : tr.Holds a s kids)
    (hopen : s.status.isFinal = false) :
    ∃ tr', (cats.mapM fun c => do return (c, ← addChild a c.label 1) :
          Tracked (List (Category × Address))).on tr
        = (.ok (Category.tasksFrom a kids.length cats), tr')
      ∧ tr'.Holds a s (kids ++ cats.map fun c => .fresh c.label 1)
      ∧ Confined a tr tr' ∧ tr'.cancelledAt [] = tr.cancelledAt [] := by
  induction cats generalizing tr kids with
  | nil => exact ⟨tr, rfl, by simpa using h, SameOn.refl _ tr, rfl⟩
  | cons c rest ih =>
      have hweight : (0 : Float) < 1 := by decide
      obtain ⟨tr₁, hadd, hwrites⟩ := addChild_ok c.label h hopen hweight
      obtain ⟨tr₂, hrest, hholds₂, hconfined₂, hflag₂⟩ := ih (h.writes_new hwrites)
      refine ⟨tr₂, ?_, by simpa using hholds₂, hwrites.confined_child.trans hconfined₂,
        hflag₂.trans hwrites.requested⟩
      rw [List.mapM_cons, bind_assoc, on_bind_eq hadd]
      simp only [pure_bind]
      rw [on_bind_eq hrest, List.length_append]
      rfl

/-- Every category gets a fresh task behind those that are there. -/
theorem addCategories_ok (h : tr.Holds a s kids) (hopen : s.status.isFinal = false) :
    ∃ tr', (addCategories a).on tr = (.ok (Category.tasksFrom a kids.length Category.all), tr')
      ∧ tr'.Holds a s (kids ++ Category.all.map fun c => .fresh c.label 1)
      ∧ Confined a tr tr' ∧ tr'.cancelledAt [] = tr.cancelledAt [] :=
  addAll_ok Category.all h hopen

/-- Stopping the subtasks behind the first ones leaves those as they are. -/
theorem cancelUnfinished_siblings (cats : List Category) (h : tr.Holds a s (old ++ kids))
    (hlength : cats.length = kids.length) :
    ∃ tr', (cancelUnfinished ((Category.tasksFrom a old.length cats).map Prod.snd)).on tr
        = (.ok (), tr')
      ∧ tr'.Holds a s (old ++ kids.map TaskState.stopped)
      ∧ Confined a tr tr' ∧ tr'.cancelledAt [] = tr.cancelledAt [] := by
  obtain ⟨tr', hrun, htold, hsame, hflag⟩ :=
    cancelUnfinished_told ((Category.tasksFrom a old.length cats).map Prod.snd) tr
  refine ⟨tr', hrun, Tracker.holds_iff.mpr ⟨?_, fun n => ?_⟩, fun b hb => ?_, hflag⟩
  · have hnot : a ∉ (Category.tasksFrom a old.length cats).map Prod.snd := by
      rw [Category.mem_tasksFrom]
      simp
    rw [htold, if_neg hnot, h.told_self]
  · rw [htold, h.told_kid]
    by_cases hn : n < old.length
    · have hnot : a ++ [n] ∉ (Category.tasksFrom a old.length cats).map Prod.snd := by
        rw [Category.mem_tasksFrom]
        rintro ⟨i, -, hi⟩
        have hsame : n = old.length + i := by simpa using hi
        omega
      rw [if_neg hnot, List.getElem?_append_left hn, List.getElem?_append_left hn]
    · obtain ⟨i, rfl⟩ := Nat.exists_eq_add_of_le (Nat.le_of_not_lt hn)
      have hmem : a ++ [old.length + i] ∈ (Category.tasksFrom a old.length cats).map Prod.snd
          ↔ i < kids.length := by
        rw [Category.mem_tasksFrom, hlength]
        constructor
        · rintro ⟨j, hj, hsame⟩
          have hij : i = j := by simpa using hsame
          exact hij ▸ hj
        · intro hi
          exact ⟨i, hi, rfl⟩
      rw [List.getElem?_append_right (Nat.le_add_right _ _), Nat.add_sub_cancel_left,
        List.getElem?_append_right (Nat.le_add_right _ _), Nat.add_sub_cancel_left,
        List.getElem?_map]
      by_cases hi : i < kids.length
      · rw [if_pos (hmem.mpr hi)]
      · rw [if_neg (mt hmem.mp hi), List.getElem?_eq_none (Nat.le_of_not_lt hi)]
        rfl
  · have hnot : b ∉ (Category.tasksFrom a old.length cats).map Prod.snd := by
      rw [Category.mem_tasksFrom]
      rintro ⟨i, -, rfl⟩
      exact hb (a.near_child _)
    exact hsame b hnot

end Tracked

end Reconcile
