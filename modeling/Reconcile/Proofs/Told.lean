import Reconcile.Proofs.Addresses
import Mathlib.Logic.Function.Basic

/-!
# What a tree tells

What is recorded of a task is all that it keeps but one thing: whether its own cancellation
was requested, which no operation reads.  Of what is recorded a task tells all but the times
themselves, so that what a run comes to tell does not depend on the clock.

`Tracker.told` is what is told at every address, and each operation is an update of that
function at one address (`perform_writes`).  Elsewhere nothing that is recorded changes, the
times included.  So work that goes on at some nodes leaves the others as they were, whatever
the shape of the tree (`SameOn`), and asking for cancellation changes nothing at all that is
recorded.

`Tracker.Holds` says what one node and its subtasks tell.  It is read off `told` alone
(`holds_iff`), so it survives whatever leaves these few addresses alone.
-/

namespace Reconcile

/-! ## Places in a list of subtasks -/

/-- Away from its place an element of a list is not seen. -/
theorem getElem?_append_cons_of_ne {α : Type} (front back : List α) (x y : α) {n : Nat}
    (hn : n ≠ front.length) : (front ++ x :: back)[n]? = (front ++ y :: back)[n]? := by
  rcases Nat.lt_or_gt_of_ne hn with hlt | hgt
  · rw [List.getElem?_append_left hlt, List.getElem?_append_left hlt]
  · obtain ⟨m, rfl⟩ := Nat.exists_eq_add_of_lt hgt
    have hback : front.length + m + 1 - front.length = m + 1 := by omega
    rw [List.getElem?_append_right hgt.le, List.getElem?_append_right hgt.le, hback,
      List.getElem?_cons_succ, List.getElem?_cons_succ]

theorem getElem?_concat_of_ne {α : Type} (xs : List α) (x : α) {n : Nat}
    (hn : n ≠ xs.length) : (xs ++ [x])[n]? = xs[n]? := by
  rcases Nat.lt_or_gt_of_ne hn with hlt | hgt
  · rw [List.getElem?_append_left hlt]
  · have hbeyond : (xs ++ [x]).length ≤ n := by
      rw [List.length_append]
      exact hgt
    rw [List.getElem?_eq_none hbeyond, List.getElem?_eq_none hgt.le]

/-! ## Tasks as they tell of themselves -/

namespace TaskState

/-- What is recorded of a task: all it keeps but whether its own cancellation was
requested. -/
def recorded (s : TaskState) : TaskState :=
  { s with cancelRequested := false }

/-- The same moment for every time. -/
def dated (time : Option Time) : Option Time :=
  time.map fun _ => 0

/-- What a task tells of itself: what is recorded of it, but of its times only whether there
are such. -/
def told (s : TaskState) : TaskState :=
  { s with
    startedAt := dated s.startedAt
    completedAt := dated s.completedAt
    cancelRequested := false }

theorem told_startedAt (s : TaskState) : s.told.startedAt.isSome = s.startedAt.isSome :=
  Option.isSome_map

theorem told_completedAt (s : TaskState) : s.told.completedAt.isSome = s.completedAt.isSome :=
  Option.isSome_map

/-- A subtask as it is added. -/
def fresh (name : String) (weight : Float) : TaskState :=
  { name, weight }

/-- The task once it has passed to another status at the time `now`; `leaf` says that it has
no subtasks. -/
def passedAt (now : Time) (next : Status) (message : Option String) (leaf : Bool)
    (s : TaskState) : TaskState :=
  let s := if next = .running then { s with startedAt := some now }
    else { s with completedAt := some now }
  let s := if next = .completed ∧ leaf then { s with percentage := 100 } else s
  { s with message := message.getD s.message, status := next }

/-- The same as it is told. -/
def passed : Status → Option String → Bool → TaskState → TaskState :=
  passedAt 0

section Passed

variable (now : Time) (next : Status) (message : Option String) (leaf : Bool) (s : TaskState)

@[simp] theorem passedAt_status : (s.passedAt now next message leaf).status = next :=
  rfl

@[simp] theorem passedAt_name : (s.passedAt now next message leaf).name = s.name := by
  unfold passedAt
  split <;> split <;> rfl

@[simp] theorem passedAt_message :
    (s.passedAt now next message leaf).message = message.getD s.message := by
  unfold passedAt
  split <;> split <;> rfl

@[simp] theorem passedAt_cancelRequested :
    (s.passedAt now next message leaf).cancelRequested = s.cancelRequested := by
  unfold passedAt
  split <;> split <;> rfl

theorem told_passedAt :
    (s.passedAt now next message leaf).told = s.told.passed next message leaf := by
  unfold passed passedAt
  split <;> split <;> rfl

@[simp] theorem passed_status : (s.passed next message leaf).status = next :=
  rfl

@[simp] theorem passed_name : (s.passed next message leaf).name = s.name :=
  s.passedAt_name 0 next message leaf

@[simp] theorem passed_message :
    (s.passed next message leaf).message = message.getD s.message :=
  s.passedAt_message 0 next message leaf

end Passed

/-- The task once it was started. -/
def begun (s : TaskState) : TaskState :=
  s.passed .running none false

@[simp] theorem begun_status (s : TaskState) : s.begun.status = .running :=
  rfl

end TaskState

theorem Task.transition_eq (now : Time) (next : Status) (message : Option String)
    (s : TaskState) (cs : List Task) :
    (Task.node s cs).transition now next message
      = if s.status.allows next then
          .ok (.node (s.passedAt now next message cs.isEmpty) cs,
            (message.map Change.message).toList ++ [.status next])
        else .error (.transition s.name s.status next) :=
  rfl

namespace Address

variable {a b : Address}

/-- The address of a node or of one of its subtasks. -/
def Near (a b : Address) : Prop :=
  b = a ∨ ∃ n, b = a ++ [n]

theorem near_self (a : Address) : a.Near a :=
  Or.inl rfl

theorem near_child (a : Address) (n : Nat) : a.Near (a ++ [n]) :=
  Or.inr ⟨n, rfl⟩

theorem not_near_grandchild (a : Address) (n m : Nat) : ¬ a.Near (a ++ [n] ++ [m]) := by
  rintro (h | ⟨k, h⟩)
  · simp at h
  · simp at h

/-- A node and its subtasks are reached through the node. -/
theorem Near.below (h : a.Near b) : a <+: b := by
  rcases h with rfl | ⟨n, rfl⟩
  · exact List.prefix_rfl
  · exact List.prefix_append a [n]

theorem child_ne_self (a : Address) (n : Nat) : a ++ [n] ≠ a := by
  simp

end Address

namespace Tracker

variable {a b : Address} {tr tr₁ tr₂ : Tracker} {s s' k k' : TaskState}
  {kids front back : List TaskState}

/-- What is recorded at an address, where a node stands. -/
def recorded (tr : Tracker) (a : Address) : Option TaskState :=
  (tr.at? a).map fun t => t.state.recorded

/-- What is told at an address, where a node stands. -/
def told (tr : Tracker) (a : Address) : Option TaskState :=
  (tr.at? a).map fun t => t.state.told

/-- The node there tells `s` of itself, and its subtasks tell `kids`. -/
def Holds (tr : Tracker) (a : Address) (s : TaskState) (kids : List TaskState) : Prop :=
  ∃ t, tr.at? a = some t ∧ t.state.told = s ∧ t.children.map (·.state.told) = kids

/-- From the first tracker to the second the node comes to tell `s`, and all else recorded is
the same. -/
structure Writes (tr : Tracker) (a : Address) (s : TaskState) (tr' : Tracker) : Prop where
  told : tr'.told = Function.update tr.told a (some s)
  elsewhere : ∀ b, b ≠ a → tr'.recorded b = tr.recorded b
  requested : tr'.cancelledAt [] = tr.cancelledAt []

/-- What is recorded at the addresses in `kept` is the same in both. -/
def SameOn (kept : Address → Prop) (tr tr' : Tracker) : Prop :=
  ∀ b, kept b → tr'.recorded b = tr.recorded b

/-- What is recorded changes at most at a node and at its subtasks. -/
def Confined (a : Address) : Tracker → Tracker → Prop :=
  SameOn fun b => ¬ a.Near b

/-! ## Changes -/

/-- What is told is read off what is recorded. -/
theorem told_eq_map (tr : Tracker) (a : Address) :
    tr.told a = (tr.recorded a).map TaskState.told := by
  unfold recorded
  rw [Option.map_map]
  rfl

theorem told_of_recorded (h : tr₁.recorded a = tr.recorded a) : tr₁.told a = tr.told a := by
  rw [told_eq_map, told_eq_map, h]

theorem SameOn.told {kept : Address → Prop} (h : SameOn kept tr tr₁) (ha : kept a) :
    tr₁.told a = tr.told a :=
  told_of_recorded (h a ha)

theorem SameOn.refl (kept : Address → Prop) (tr : Tracker) : SameOn kept tr tr :=
  fun _ _ => rfl

theorem SameOn.trans {kept : Address → Prop} (h : SameOn kept tr tr₁)
    (h' : SameOn kept tr₁ tr₂) : SameOn kept tr tr₂ := by
  intro b hb
  rw [h' b hb, h b hb]

theorem SameOn.mono {kept kept' : Address → Prop} (h : SameOn kept tr tr₁)
    (hsub : ∀ b, kept' b → kept b) : SameOn kept' tr tr₁ :=
  fun b hb => h b (hsub b hb)

theorem Confined.trans (h : Confined a tr tr₁) (h' : Confined a tr₁ tr₂) : Confined a tr tr₂ :=
  SameOn.trans h h'

theorem Confined.told_grandchild (h : Confined a tr tr₁) (n m : Nat) :
    tr₁.told (a ++ [n] ++ [m]) = tr.told (a ++ [n] ++ [m]) :=
  h.told (a.not_near_grandchild n m)

namespace Writes

theorem refl_of_told (h : tr.told a = some s) : tr.Writes a s tr :=
  ⟨by rw [← h, Function.update_eq_self], fun _ _ => rfl, rfl⟩

theorem trans (h : tr.Writes a s tr₁) (h' : tr₁.Writes a s' tr₂) : tr.Writes a s' tr₂ :=
  ⟨by rw [h'.told, h.told, Function.update_idem],
    fun b hb => (h'.elsewhere b hb).trans (h.elsewhere b hb), h'.requested.trans h.requested⟩

theorem told_self (h : tr.Writes a s tr₁) : tr₁.told a = some s := by
  rw [h.told, Function.update_self]

theorem told_of_ne (h : tr.Writes a s tr₁) (hb : b ≠ a) : tr₁.told b = tr.told b :=
  told_of_recorded (h.elsewhere b hb)

theorem sameOn {kept : Address → Prop} (h : tr.Writes a s tr₁) (ha : ¬ kept a) :
    SameOn kept tr tr₁ := by
  intro b hb
  refine h.elsewhere b ?_
  rintro rfl
  exact ha hb

theorem confined_self (h : tr.Writes a s tr₁) : Confined a tr tr₁ :=
  h.sameOn fun hnear => hnear a.near_self

theorem confined_child {n : Nat} (h : tr.Writes (a ++ [n]) s tr₁) : Confined a tr tr₁ :=
  h.sameOn fun hnear => hnear (a.near_child n)

end Writes

/-! ## A node and its subtasks -/

theorem recorded_of_at? {t : Task} (h : tr.at? a = some t) :
    tr.recorded a = some t.state.recorded :=
  congrArg (Option.map fun t : Task => t.state.recorded) h

/-- Any node tells something. -/
theorem holds_of_at? {t : Task} (h : tr.at? a = some t) :
    tr.Holds a t.state.told (t.children.map (·.state.told)) :=
  ⟨t, h, rfl, rfl⟩

/-- Nothing is told where no node stands. -/
theorem told_eq_none : tr.told a = none ↔ tr.at? a = none :=
  Option.map_eq_none_iff

/-- Nothing is told below an address where no node stands. -/
theorem told_append_of_none (h : tr.told a = none) (b : Address) : tr.told (a ++ b) = none := by
  have hnone : tr.root.at? a = none := told_eq_none.mp h
  rw [told_eq_none, Tracker.at?, Task.at?_append, hnone]
  rfl

theorem told_child {t : Task} (h : tr.at? a = some t) (n : Nat) :
    tr.told (a ++ [n]) = (t.children.map (·.state.told))[n]? := by
  obtain ⟨s, cs⟩ := t
  have hroot : tr.root.at? a = some (.node s cs) := h
  unfold told Tracker.at?
  rw [Task.at?_append, hroot, Option.bind_some, Task.at?_cons, List.getElem?_map]
  cases hc : cs[n]? with
  | none => simp [Task.children, hc]
  | some c => simp [Task.children, Task.at?, hc]

theorem holds_iff :
    tr.Holds a s kids ↔ tr.told a = some s ∧ ∀ n, tr.told (a ++ [n]) = kids[n]? := by
  constructor
  · rintro ⟨t, ht, rfl, rfl⟩
    refine ⟨?_, told_child ht⟩
    unfold told
    rw [ht, Option.map_some]
  · rintro ⟨hself, hkids⟩
    obtain ⟨t, ht, hs⟩ := Option.map_eq_some_iff.mp hself
    refine ⟨t, ht, hs, List.ext_getElem? fun n => ?_⟩
    rw [← told_child ht, hkids]

namespace Holds

theorem told_self (h : tr.Holds a s kids) : tr.told a = some s :=
  (holds_iff.mp h).1

theorem told_kid (h : tr.Holds a s kids) (n : Nat) : tr.told (a ++ [n]) = kids[n]? :=
  (holds_iff.mp h).2 n

/-- Where what is told of a node and its subtasks is the same, the same node stands. -/
theorem of_same (h : tr.Holds a s kids) (hsame : ∀ b, a.Near b → tr₁.told b = tr.told b) :
    tr₁.Holds a s kids := by
  refine holds_iff.mpr ⟨?_, fun n => ?_⟩
  · rw [hsame a a.near_self, h.told_self]
  · rw [hsame (a ++ [n]) (a.near_child n), h.told_kid]

/-- Where what is told at a node and below it is the same, the same node stands. -/
theorem of_below (h : tr.Holds a s kids) (hsame : SameOn (a <+: ·) tr tr₁) :
    tr₁.Holds a s kids :=
  h.of_same fun _ hnear => hsame.told hnear.below

theorem writes_self (h : tr.Holds a s kids) (hw : tr.Writes a s' tr₁) :
    tr₁.Holds a s' kids := by
  refine holds_iff.mpr ⟨hw.told_self, fun n => ?_⟩
  rw [hw.told_of_ne (a.child_ne_self n), h.told_kid]

/-- A change at one subtask is a change of that one among the others. -/
theorem change_child (h : tr.Holds a s (front ++ k :: back))
    (hchild : tr₁.told (a ++ [front.length]) = some k')
    (hsame : ∀ b, a.Near b → b ≠ a ++ [front.length] → tr₁.told b = tr.told b) :
    tr₁.Holds a s (front ++ k' :: back) := by
  refine holds_iff.mpr ⟨?_, fun n => ?_⟩
  · rw [hsame a a.near_self (a.child_ne_self _).symm, h.told_self]
  · by_cases hn : n = front.length
    · subst hn
      rw [hchild]
      simp
    · have hne : a ++ [n] ≠ a ++ [front.length] := by simpa using hn
      rw [hsame _ (a.near_child n) hne, h.told_kid, getElem?_append_cons_of_ne _ _ k k' hn]

theorem writes_child (h : tr.Holds a s (front ++ k :: back))
    (hw : tr.Writes (a ++ [front.length]) k' tr₁) : tr₁.Holds a s (front ++ k' :: back) :=
  h.change_child hw.told_self fun _ _ hne => hw.told_of_ne hne

/-- A new subtask stands behind the others. -/
theorem writes_new (h : tr.Holds a s kids) (hw : tr.Writes (a ++ [kids.length]) k tr₁) :
    tr₁.Holds a s (kids ++ [k]) := by
  refine holds_iff.mpr ⟨?_, fun n => ?_⟩
  · rw [hw.told_of_ne (a.child_ne_self _).symm, h.told_self]
  · by_cases hn : n = kids.length
    · subst hn
      rw [hw.told_self]
      simp
    · have hne : a ++ [n] ≠ a ++ [kids.length] := by simpa using hn
      rw [hw.told_of_ne hne, h.told_kid, getElem?_concat_of_ne kids k hn]

/-- A subtask with nothing told below it is a leaf. -/
theorem leaf_kid {n : Nat} (h : tr.Holds a s kids) (hk : kids[n]? = some k)
    (hleaf : ∀ m, tr.told (a ++ [n] ++ [m]) = none) : tr.Holds (a ++ [n]) k [] := by
  refine holds_iff.mpr ⟨?_, fun m => ?_⟩
  · rw [h.told_kid, hk]
  · rw [hleaf m]
    rfl

theorem leaf_child (h : tr.Holds a s (front ++ k :: back))
    (hleaf : ∀ m, tr.told (a ++ [front.length] ++ [m]) = none) :
    tr.Holds (a ++ [front.length]) k [] :=
  h.leaf_kid (by simp) hleaf

/-- There are no nodes below the places that are still free. -/
theorem told_below_free (h : tr.Holds a s kids) {n : Nat} (hn : kids.length ≤ n) (m : Nat) :
    tr.told (a ++ [n] ++ [m]) = none := by
  refine told_append_of_none ?_ [m]
  rw [h.told_kid, List.getElem?_eq_none hn]

end Holds

/-- Nothing is told below the subtasks from the `n`-th on. -/
def Bare (a : Address) (n : Nat) (tr : Tracker) : Prop :=
  ∀ i, n ≤ i → ∀ m, tr.told (a ++ [i] ++ [m]) = none

theorem Holds.bare (h : tr.Holds a s kids) : Bare a kids.length tr :=
  fun _ hi m => h.told_below_free hi m

theorem Bare.of_same {n m : Nat} (h : Bare a n tr) (hle : n ≤ m)
    (hsame : ∀ i k, tr₁.told (a ++ [i] ++ [k]) = tr.told (a ++ [i] ++ [k])) : Bare a m tr₁ := by
  intro i hi k
  rw [hsame]
  exact h i (hle.trans hi) k

theorem Bare.of_confined {n m : Nat} (h : Bare a n tr) (hconfined : Confined a tr tr₁)
    (hle : n ≤ m) : Bare a m tr₁ :=
  h.of_same hle hconfined.told_grandchild

/-- The node there and its subtasks have completed. -/
def Finished (tr : Tracker) (a : Address) : Prop :=
  ∃ s kids, tr.Holds a s kids ∧ s.status = .completed ∧ ∀ k ∈ kids, k.status = .completed

theorem Finished.of_below (h : tr.Finished a) (hsame : SameOn (a <+: ·) tr tr₁) :
    tr₁.Finished a := by
  obtain ⟨s, kids, hholds, hstatus, hkids⟩ := h
  exact ⟨s, kids, hholds.of_below hsame, hstatus, hkids⟩

/-- Whatever is told at a finished node or at one of its subtasks is completed. -/
theorem Finished.told_near (h : tr.Finished a) (hnear : a.Near b) (htold : tr.told b = some s) :
    s.status = .completed := by
  obtain ⟨s', kids, hholds, hstatus, hkids⟩ := h
  rcases hnear with rfl | ⟨n, rfl⟩
  · rw [hholds.told_self] at htold
    cases htold
    exact hstatus
  · rw [hholds.told_kid] at htold
    exact hkids s (List.mem_of_getElem? htold)

end Tracker

/-! ## What is seen of a node -/

/-- The subtasks by name and status, in their order. -/
def Task.standing (t : Task) : List (String × Status) :=
  t.children.map fun c => (c.name, c.status)

theorem standing_told (t : Task) :
    (t.children.map (·.state.told)).map (fun k => (k.name, k.status)) = t.standing := by
  rw [List.map_map]
  rfl

/-- What is told of a node shows its status and the standing of its subtasks. -/
theorem Tracker.Holds.shows {a : Address} {tr : Tracker} {s : TaskState}
    {kids : List TaskState} (h : tr.Holds a s kids) :
    ∃ t, tr.at? a = some t ∧ t.status = s.status ∧ t.state.message = s.message
      ∧ t.standing = kids.map fun k => (k.name, k.status) := by
  obtain ⟨t, ht, rfl, rfl⟩ := h
  exact ⟨t, ht, rfl, rfl, (standing_told t).symm⟩

/-! ## Replaced nodes -/

namespace Task

variable {β : Type} {a b : Address} {t : Task} {s s' : TaskState} {cs : List Task}

/-- What `see` shows of the nodes of a tree. -/
def seen (see : TaskState → β) (t : Task) (a : Address) : Option β :=
  (t.at? a).map fun u => see u.state

/-- Putting a node in the place of another is not seen on ways that do not pass there. -/
theorem seen_replaceAt_of_not_prefix (see : TaskState → β) (t new : Task) (h : ¬ a <+: b) :
    seen see (replaceAt new a t) b = seen see t b := by
  have hseen := congrArg (Option.map see) (state_at?_replaceAt h t new)
  rw [Option.map_map, Option.map_map] at hseen
  exact hseen

/-- What is seen after a node was replaced by one that keeps its subtasks. -/
theorem seen_replaceAt (see : TaskState → β) (h : t.at? a = some (.node s cs)) :
    seen see (replaceAt (.node s' cs) a t) = Function.update (seen see t) a (some (see s')) := by
  funext b
  by_cases hprefix : a <+: b
  · obtain ⟨c, rfl⟩ := hprefix
    unfold seen
    rw [at?_replaceAt_append h]
    cases c with
    | nil =>
        rw [List.append_nil, Function.update_self]
        rfl
    | cons n c =>
        rw [Function.update_of_ne (by simp), at?_append, h, Option.bind_some, at?_cons, at?_cons]
  · have hne : b ≠ a := by
      rintro rfl
      exact hprefix List.prefix_rfl
    rw [Function.update_of_ne hne, seen_replaceAt_of_not_prefix see t _ hprefix]

/-- What is seen after a subtask without subtasks of its own was put behind the others. -/
theorem seen_replaceAt_snoc (see : TaskState → β) (new : TaskState)
    (h : t.at? a = some (.node s cs)) :
    seen see (replaceAt (.node s (cs ++ [.node new []])) a t)
      = Function.update (seen see t) (a ++ [cs.length]) (some (see new)) := by
  funext b
  by_cases hprefix : a <+: b
  · obtain ⟨c, rfl⟩ := hprefix
    unfold seen
    rw [at?_replaceAt_append h]
    cases c with
    | nil =>
        rw [Function.update_of_ne (by simp), List.append_nil, h]
        rfl
    | cons n c =>
        rw [at?_cons]
        -- Below the node only the place behind its subtasks differs.
        by_cases hn : n = cs.length
        · subst hn
          rw [List.getElem?_concat_length, Option.bind_some]
          cases c with
          | nil =>
              rw [Function.update_self]
              rfl
          | cons m c =>
              rw [Function.update_of_ne (by simp), at?_append, h, Option.bind_some, at?_cons,
                at?_cons]
              simp
        · rw [Function.update_of_ne (by simp [hn]), at?_append, h, Option.bind_some, at?_cons,
            getElem?_concat_of_ne cs _ hn]
  · have hne : b ≠ a ++ [cs.length] := by
      rintro rfl
      exact hprefix (List.prefix_append a _)
    rw [Function.update_of_ne hne, seen_replaceAt_of_not_prefix see t _ hprefix]

end Task

/-! ## Operations -/

namespace Tracker

variable {a b : Address} {tr : Tracker} {s s' : TaskState} {cs cs' : List Task}

/-- The tracker once the node at an address has become `t` and `changes` were announced. -/
def put (tr : Tracker) (a : Address) (t : Task) (changes : List Change) : Tracker :=
  { tr with root := Task.replaceAt t a tr.root, log := tr.log ++ changes.map (⟨a, ·⟩) }

/-- Replacing a node by one of which cancellation is requested as before changes no
request. -/
theorem cancelledAt_put (changes : List Change) (h : tr.at? a = some (.node s cs))
    (hflag : s'.cancelRequested = s.cancelRequested) :
    (tr.put a (.node s' cs') changes).cancelledAt [] = tr.cancelledAt [] := by
  unfold cancelledAt
  cases a with
  | nil =>
      have hroot : tr.root = .node s cs := Option.some.inj h
      rw [hroot]
      exact hflag
  | cons i a =>
      obtain ⟨⟨s₁, cs₁⟩, log, clock⟩ := tr
      unfold put
      rw [Task.replaceAt]
      cases cs₁[i]? with
      | none => rfl
      | some c => rfl

/-- A node that was replaced by one with the same subtasks. -/
theorem put_writes (s' : TaskState) (changes : List Change) (h : tr.at? a = some (.node s cs))
    (hflag : s'.cancelRequested = s.cancelRequested) :
    tr.Writes a s'.told (tr.put a (.node s' cs) changes) where
  told := Task.seen_replaceAt TaskState.told h
  elsewhere b hb := by
    have hseen : Task.seen TaskState.recorded (Task.replaceAt (.node s' cs) a tr.root) = _ :=
      Task.seen_replaceAt TaskState.recorded h
    have hrecorded := congrFun hseen b
    rw [Function.update_of_ne hb] at hrecorded
    exact hrecorded
  requested := cancelledAt_put changes h hflag

/-- A subtask without subtasks of its own that was put behind the others. -/
theorem put_writes_snoc (new : TaskState) (changes : List Change)
    (h : tr.at? a = some (.node s cs)) :
    tr.Writes (a ++ [cs.length]) new.told
      (tr.put a (.node s (cs ++ [.node new []])) changes) where
  told := Task.seen_replaceAt_snoc TaskState.told new h
  elsewhere b hb := by
    have hrecorded := congrFun (Task.seen_replaceAt_snoc TaskState.recorded new h) b
    rw [Function.update_of_ne hb] at hrecorded
    exact hrecorded
  requested := cancelledAt_put changes h rfl

/-- Where no node stands an operation does nothing. -/
theorem perform_of_none {op : TaskOp} (h : tr.at? a = none) : tr.perform a op = .ok tr := by
  have hroot : tr.root.at? a = none := h
  simp only [perform, hroot]

theorem perform_of_at? {op : TaskOp} {t : Task} (h : tr.at? a = some t) :
    tr.perform a op = (match t.perform tr.now op with
      | .error e => .error e
      | .ok (t, changes) => .ok (tr.put a t changes)) := by
  have hroot : tr.root.at? a = some t := h
  cases hop : t.perform tr.now op <;> simp only [perform, put, hroot, hop]

/-- An operation that the node there allows, and that leaves its subtasks alone. -/
theorem perform_writes {op : TaskOp} {changes : List Change}
    (hnode : tr.at? a = some (.node s cs))
    (hop : (Task.node s cs).perform tr.now op = .ok (.node s' cs, changes))
    (hflag : s'.cancelRequested = s.cancelRequested) :
    ∃ tr', tr.perform a op = .ok tr' ∧ tr.Writes a s'.told tr' := by
  refine ⟨tr.put a (.node s' cs) changes, ?_, put_writes s' changes hnode hflag⟩
  rw [perform_of_at? hnode, hop]

end Tracker

end Reconcile
