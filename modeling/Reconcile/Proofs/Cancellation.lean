import Reconcile.Proofs.Requests

/-!
# Cancellation reaches the subtree

Every task holds a cancellation token.  That of a root is new, that of a subtask is derived from
its parent's, and to cancel a task is to cancel its token.  So the tokens should form the same
trees as the tasks (`Forest.Linked.order`), however the trees grow and whatever is cancelled in
between; then a task is asked to stop just if it or a task above it was cancelled
(`Forest.cancels_below`), be that before the task was there or after.

How a token learns that one before it was cancelled is the tokens' own affair.  `isCancelled`
stands for it, and `CancelsDerived` says what it is relied on for.
-/

namespace Reconcile

/-! ## Tokens -/

/-- A cancellation token: the numbers of the tokens that it was derived from, each from the one
before, and its own. -/
abbrev CancelToken : Type := List Nat

/-- The tokens that there are by their number, and those that were cancelled. -/
structure CancelTokens where
  made : Nat := 0
  cancelled : List CancelToken := []

/-- A token counts as cancelled if it was cancelled or one that it was derived from. -/
def CancelsDerived (isCancelled : List CancelToken → CancelToken → Bool) : Prop :=
  ∀ cancelled t, isCancelled cancelled t = true ↔ ∃ u ∈ cancelled, u <+: t

/-- The numbers of a token begin with those of the tokens that it was derived from. -/
def CancelToken.isCancelled (cancelled : List CancelToken) (t : CancelToken) : Bool :=
  cancelled.any fun u => u.isPrefixOf t

theorem CancelToken.cancelsDerived : CancelsDerived CancelToken.isCancelled := by
  intro cancelled t
  simp [isCancelled]

/-! ## Trees and their tokens -/

/-- A task, by its tree and its address there. -/
abbrev Spot : Type := Nat × Address

/-- Trees of tasks, and the token of each task. -/
structure Forest where
  trees : List Tracker := []
  tokens : CancelTokens := {}
  token : Spot → Option CancelToken := fun _ => none

/-- What may be asked of several trees. -/
inductive ForestCall where
  /-- A tree of its own, with its clock. -/
  | plant (name : String) (clock : Nat → Time := fun _ => 0)
  | on (p : Spot) (c : TaskCall)
  /-- Cancels the token that the task was asked for. -/
  | cancelToken (p : Spot)

/-- The call cancels the task there, by itself or by its token. -/
def ForestCall.Asks (c : ForestCall) (p : Spot) : Prop :=
  c = .on p .cancel ∨ c = .cancelToken p

/-- No other call requests cancellation of its task. -/
theorem TaskCall.op_eq_cancel_iff {c : TaskCall} : c.op = .cancel ↔ c = .cancel := by
  cases c with
  | settle outcome =>
      rcases outcome with e | _
      · cases e <;> simp [op, Tracked.ending]
      · simp [op, Tracked.ending]
  | _ => simp [op]

namespace Forest

def at? (f : Forest) (p : Spot) : Option Task :=
  f.trees[p.1]?.bind (·.at? p.2)

def Stands (f : Forest) (p : Spot) : Prop :=
  (f.at? p).isSome = true

instance (f : Forest) (p : Spot) : Decidable (f.Stands p) :=
  inferInstanceAs (Decidable ((f.at? p).isSome = true))

/-- What the clock of a tree shows. -/
def now (f : Forest) (p : Spot) : Time :=
  (f.trees[p.1]?.map Tracker.now).getD 0

/-- The task there is given a new token, derived from another one. -/
def equipped (f : Forest) (p : Spot) (origin : CancelToken) : Forest :=
  { f with
    tokens := { f.tokens with made := f.tokens.made + 1 }
    token := Function.update f.token p (some (origin ++ [f.tokens.made])) }

/-- What becomes of the tokens when an operation is asked of a task. -/
def onTokens (f : Forest) (p : Spot) (op : TaskOp) : Forest :=
  match op, f.at? p, f.token p with
  | .cancel, some _, some t =>
      { f with tokens := { f.tokens with cancelled := t :: f.tokens.cancelled } }
  | .addChild name weight, some task, some t =>
      match task.perform (f.now p) (.addChild name weight) with
      | .ok _ => f.equipped (p.1, p.2 ++ [task.children.length]) t
      | .error _ => f
  | _, _, _ => f

/-- An operation is asked of a task, and the tokens follow. -/
def attempt (f : Forest) (p : Spot) (op : TaskOp) : Forest :=
  { f.onTokens p op with trees := f.trees.modify p.1 (·.attempt p.2 op) }

def made (f : Forest) : ForestCall → Forest
  | .plant name clock =>
      { f.equipped (f.trees.length, []) [] with trees := f.trees ++ [.new name clock] }
  | .on p c =>
      { f.onTokens p c.op with trees := f.trees.modify p.1 fun tr => ((c.made p.2).on tr).2 }
  | .cancelToken p => f.attempt p .cancel

/-- The trees after several calls, the first of which finds none. -/
def after (calls : List ForestCall) : Forest :=
  calls.foldl made {}

/-- What a task answers that is asked whether it should stop, which is what its token says. -/
def isCancellationRequested (isCancelled : List CancelToken → CancelToken → Bool) (f : Forest)
    (p : Spot) : Bool :=
  (f.token p).any (isCancelled f.tokens.cancelled)

/-- The task there was cancelled by one of the calls. -/
def Asked (calls : List ForestCall) (p : Spot) : Prop :=
  ∃ before c later, calls = before ++ c :: later ∧ c.Asks p ∧ (after before).Stands p

/-- What is seen of the task there. -/
def view (f : Forest) (p : Spot) : Option Task.View :=
  (f.at? p).map Task.view

def logs (f : Forest) : List (List Event) :=
  f.trees.map Tracker.log

/-! ## Marks -/

/-- Whether cancellation was requested of the very task there. -/
def mark (trees : List Tracker) (p : Spot) : Option Bool :=
  trees[p.1]?.bind (·.requestedAt p.2)

variable {f f' : Forest} {p q : Spot} {c : ForestCall} {calls : List ForestCall}

theorem isSome_mark (f : Forest) (p : Spot) : (mark f.trees p).isSome = true ↔ f.Stands p := by
  unfold mark Stands at?
  cases f.trees[p.1]? with
  | none => rfl
  | some tr =>
      rw [Option.bind_some, Option.bind_some, Tracker.isSome_requestedAt]

theorem mark_of_not_stands (h : ¬ f.Stands p) : mark f.trees p = none := by
  rw [← Option.not_isSome_iff_eq_none, isSome_mark]
  exact h

/-- Tasks above one that stands do stand. -/
theorem Stands.above (h : f.Stands p) {a : Address} (ha : a <+: p.2) : f.Stands (p.1, a) := by
  obtain ⟨b, hb⟩ := ha
  unfold Stands at? at *
  rw [← hb] at h
  cases htree : f.trees[p.1]? with
  | none =>
      rw [htree] at h
      cases h
  | some tr =>
      rw [htree, Option.bind_some, Tracker.at?, Task.at?_append] at h
      rw [Option.bind_some, Tracker.at?]
      cases hnode : tr.root.at? a with
      | none =>
          rw [hnode] at h
          cases h
      | some t => rfl

theorem mark_plant (trees : List Tracker) (name : String) (clock : Nat → Time) :
    mark (trees ++ [.new name clock])
      = Function.update (mark trees) (trees.length, []) (some false) := by
  funext ⟨k, a⟩
  unfold mark
  by_cases hk : k = trees.length
  · subst hk
    rw [List.getElem?_concat_length, Option.bind_some, Tracker.requestedAt_new]
    cases a with
    | nil => rw [Function.update_self, Function.update_self]
    | cons i a =>
        rw [Function.update_of_ne (by simp), Function.update_of_ne (by simp)]
        simp
  · rw [Function.update_of_ne (by simp [hk]), getElem?_concat_of_ne trees _ hk]

/-- A tree is changed without a change of its marks. -/
theorem mark_modify_same {trees : List Tracker} {k : Nat} {g : Tracker → Tracker}
    (h : ∀ tr, trees[k]? = some tr → (g tr).requestedAt = tr.requestedAt) :
    mark (trees.modify k g) = mark trees := by
  funext ⟨j, a⟩
  unfold mark
  by_cases hj : k = j
  · subst hj
    rw [List.getElem?_modify_eq]
    cases htree : trees[k]? with
    | none => rfl
    | some tr => exact congrFun (h tr htree) a
  · rw [List.getElem?_modify_ne g trees hj]

/-- A tree is changed with a change of one of its marks. -/
theorem mark_modify_update {trees : List Tracker} {k : Nat} {a : Address}
    {g : Tracker → Tracker} {tr : Tracker} {value : Bool} (htree : trees[k]? = some tr)
    (h : (g tr).requestedAt = Function.update tr.requestedAt a (some value)) :
    mark (trees.modify k g) = Function.update (mark trees) (k, a) (some value) := by
  funext ⟨j, b⟩
  unfold mark
  by_cases hj : k = j
  · subst hj
    rw [List.getElem?_modify_eq, htree, Option.map_eq_map, Option.map_some, Option.bind_some, h]
    by_cases hb : b = a
    · subst hb
      rw [Function.update_self, Function.update_self]
    · rw [Function.update_of_ne hb, Function.update_of_ne (by simp [hb]), htree, Option.bind_some]
  · rw [List.getElem?_modify_ne g trees hj, Function.update_of_ne (by simp [Ne.symm hj])]

/-! ## One call -/

/-- A token from which the task there may have its own derived: it has those tokens before it
that belong to the tasks above. -/
structure Origin (f : Forest) (p : Spot) (origin : CancelToken) : Prop where
  above : ∀ q t, f.token q = some t → (t <+: origin ↔ q.1 = p.1 ∧ q.2 <+: p.2)
  numbers : ∀ n ∈ origin, n < f.tokens.made

/-- What a call may do to the marks and the tokens. -/
inductive Moves (f : Forest) (c : ForestCall) (f' : Forest) : Prop where
  | rests (hasks : ∀ p, c.Asks p → ¬ f.Stands p) (hmark : mark f'.trees = mark f.trees)
      (htoken : f'.token = f.token) (htokens : f'.tokens = f.tokens)
  | grows (p : Spot) (origin : CancelToken) (hasks : ∀ q, ¬ c.Asks q) (hfree : ¬ f.Stands p)
      (horigin : f.Origin p origin)
      (hmark : mark f'.trees = Function.update (mark f.trees) p (some false))
      (htoken : f'.token = (f.equipped p origin).token)
      (htokens : f'.tokens = (f.equipped p origin).tokens)
  | heeds (p : Spot) (t : CancelToken) (hasks : ∀ q, c.Asks q ↔ q = p) (hstands : f.Stands p)
      (ht : f.token p = some t)
      (hmark : mark f'.trees = Function.update (mark f.trees) p (some true))
      (htoken : f'.token = f.token)
      (htokens : f'.tokens = { f.tokens with cancelled := t :: f.tokens.cancelled })

/-- The tokens stand as the tasks do. -/
structure Linked (f : Forest) : Prop where
  stands : ∀ p, (f.token p).isSome = true ↔ f.Stands p
  order : ∀ p q t u, f.token p = some t → f.token q = some u →
    (t <+: u ↔ p.1 = q.1 ∧ p.2 <+: q.2)
  nonempty : ∀ p t, f.token p = some t → t ≠ []
  numbers : ∀ p t, f.token p = some t → ∀ n ∈ t, n < f.tokens.made
  cancelled : ∀ t, t ∈ f.tokens.cancelled ↔ ∃ p, f.token p = some t ∧ mark f.trees p = some true

theorem onTokens_of_at?_eq_none {op : TaskOp} (h : f.at? p = none) : f.onTokens p op = f := by
  cases op <;> simp only [onTokens, h]

theorem onTokens_other {op : TaskOp} (hcancel : op ≠ .cancel)
    (hadd : ∀ name weight, op ≠ .addChild name weight) : f.onTokens p op = f := by
  unfold onTokens
  split
  · exact absurd rfl hcancel
  · exact absurd rfl (hadd _ _)
  · rfl

theorem Linked.token_of_stands (h : f.Linked) (hp : f.Stands p) : ∃ t, f.token p = some t :=
  Option.isSome_iff_exists.mp ((h.stands p).mpr hp)

/-- The token of a task is one from which those of its new subtasks are derived. -/
theorem Linked.origin {a : Address} {k i : Nat} {t : CancelToken} (h : f.Linked)
    (ht : f.token (k, a) = some t) (hfree : ¬ f.Stands (k, a ++ [i])) :
    f.Origin (k, a ++ [i]) t := by
  refine ⟨?above, h.numbers _ t ht⟩
  intro q u hu
  rw [h.order q (k, a) u t hu ht]
  simp only
  rw [List.prefix_concat_iff]
  constructor
  · rintro ⟨hk, hprefix⟩
    exact ⟨hk, Or.inr hprefix⟩
  · rintro ⟨hk, hself | hprefix⟩
    · have hq : q = (k, a ++ [i]) := Prod.ext hk hself
      have hstands : f.Stands q := (h.stands q).mp (by rw [hu]; rfl)
      exact absurd (hq ▸ hstands) hfree
    · exact ⟨hk, hprefix⟩

/-- A new tree is derived from nothing. -/
theorem Linked.origin_root (h : f.Linked) : f.Origin (f.trees.length, []) [] := by
  refine ⟨?above, by simp⟩
  intro q t ht
  have hstands : f.Stands q := (h.stands q).mp (by rw [ht]; rfl)
  constructor
  · intro hprefix
    exact absurd (List.prefix_nil.mp hprefix) (h.nonempty q t ht)
  · rintro ⟨hk, -⟩
    unfold Stands at? at hstands
    rw [hk, List.getElem?_eq_none (le_refl _)] at hstands
    cases hstands

theorem at?_of_tree {tr : Tracker} (htree : f.trees[p.1]? = some tr) : f.at? p = tr.at? p.2 := by
  unfold at?
  rw [htree, Option.bind_some]

theorem now_of_tree {tr : Tracker} (htree : f.trees[p.1]? = some tr) : f.now p = tr.now := by
  unfold now
  rw [htree]
  rfl

/-- Where neither a mark nor a token changes, nothing does. -/
theorem attempt_rests {op : TaskOp} (hasks : ∀ q, c.Asks q → ¬ f.Stands q)
    (htokens : f.onTokens p op = f)
    (hmarks : ∀ tr, f.trees[p.1]? = some tr →
      (tr.attempt p.2 op).requestedAt = tr.requestedAt) :
    f.Moves c (f.attempt p op) := by
  apply Moves.rests hasks (mark_modify_same hmarks)
  · show (f.onTokens p op).token = f.token
    rw [htokens]
  · show (f.onTokens p op).tokens = f.tokens
    rw [htokens]

theorem Linked.cancel_heeds {task : Task} (h : f.Linked) (hasks : ∀ q, c.Asks q ↔ q = p)
    (hnode : f.at? p = some task) : f.Moves c (f.attempt p .cancel) := by
  have hstands : f.Stands p := Option.isSome_iff_exists.mpr ⟨task, hnode⟩
  obtain ⟨t, ht⟩ := h.token_of_stands hstands
  obtain ⟨tr, htree, htask⟩ := Option.bind_eq_some_iff.mp hnode
  have htokens : f.onTokens p .cancel
      = { f with tokens := { f.tokens with cancelled := t :: f.tokens.cancelled } } := by
    simp only [onTokens, hnode, ht]
  apply Moves.heeds p t hasks hstands ht
  · exact mark_modify_update htree (Tracker.requestedAt_attempt_cancel htask)
  · show (f.onTokens p .cancel).token = _
    rw [htokens]
  · show (f.onTokens p .cancel).tokens = _
    rw [htokens]

theorem Linked.addChild_moves {task : Task} {name : String} {weight : Float} (h : f.Linked)
    (hasks : ∀ q, ¬ c.Asks q) (hnode : f.at? p = some task) :
    f.Moves c (f.attempt p (.addChild name weight)) := by
  have hstands : f.Stands p := Option.isSome_iff_exists.mpr ⟨task, hnode⟩
  obtain ⟨t, ht⟩ := h.token_of_stands hstands
  obtain ⟨tr, htree, htask⟩ := Option.bind_eq_some_iff.mp hnode
  have hnow := now_of_tree htree
  cases hop : task.perform tr.now (.addChild name weight) with
  | error e =>
      have htokens : f.onTokens p (.addChild name weight) = f := by
        simp only [onTokens, hnode, ht, hnow, hop]
      apply attempt_rests (fun q hq => absurd hq (hasks q)) htokens
      intro tr' htree'
      obtain rfl : tr = tr' := Option.some.inj (htree.symm.trans htree')
      rw [Tracker.attempt_of_refused htask hop]
  | ok result =>
      have htokens : f.onTokens p (.addChild name weight)
          = f.equipped (p.1, p.2 ++ [task.children.length]) t := by
        simp only [onTokens, hnode, ht, hnow, hop]
      have hfree : ¬ f.Stands (p.1, p.2 ++ [task.children.length]) := by
        obtain ⟨s, cs⟩ := task
        have hroot : tr.root.at? p.2 = some (.node s cs) := htask
        unfold Stands at?
        rw [htree, Option.bind_some, Tracker.at?, Task.at?_append, hroot, Option.bind_some,
          Task.at?_cons, Task.children, List.getElem?_eq_none (le_refl _)]
        decide
      apply Moves.grows (p.1, p.2 ++ [task.children.length]) t hasks hfree (h.origin ht hfree)
      · exact mark_modify_update htree (Tracker.requestedAt_attempt_addChild htask hop)
      · show (f.onTokens p (.addChild name weight)).token = _
        rw [htokens]
      · show (f.onTokens p (.addChild name weight)).tokens = _
        rw [htokens]

theorem Linked.attempt_moves (h : f.Linked) (p : Spot) (op : TaskOp)
    (hasks : ∀ q, c.Asks q ↔ op = .cancel ∧ q = p) : f.Moves c (f.attempt p op) := by
  cases hnode : f.at? p with
  | none =>
      apply attempt_rests _ (onTokens_of_at?_eq_none hnode)
      · intro tr htree
        rw [at?_of_tree htree] at hnode
        rw [Tracker.attempt_of_at?_eq_none hnode]
      · intro q hq hstands
        obtain ⟨task, htask⟩ := Option.isSome_iff_exists.mp hstands
        rw [((hasks q).mp hq).2, hnode] at htask
        cases htask
  | some task =>
      by_cases hcancel : op = .cancel
      · subst hcancel
        exact h.cancel_heeds (fun q => by simp [hasks q]) hnode
      · have hnone : ∀ q, ¬ c.Asks q := fun q hq => hcancel ((hasks q).mp hq).1
        by_cases hadd : ∃ name weight, op = .addChild name weight
        · obtain ⟨name, weight, rfl⟩ := hadd
          exact h.addChild_moves hnone hnode
        · have hother : ∀ name weight, op ≠ .addChild name weight :=
            fun name weight heq => hadd ⟨name, weight, heq⟩
          apply attempt_rests (fun q hq => absurd hq (hnone q)) (onTokens_other hcancel hother)
          intro tr _
          exact tr.requestedAt_attempt_other p.2 hcancel hother

/-- A call does one of these things. -/
theorem Linked.made_moves (h : f.Linked) (c : ForestCall) : f.Moves c (f.made c) := by
  cases c with
  | plant name clock =>
      have hfree : ¬ f.Stands (f.trees.length, []) := by
        unfold Stands at?
        rw [List.getElem?_eq_none (le_refl _), Option.bind_none]
        decide
      have hasks : ∀ q, ¬ (ForestCall.plant name clock).Asks q := by
        rintro q (hq | hq)
        · cases hq
        · cases hq
      exact .grows _ _ hasks hfree h.origin_root (mark_plant f.trees name clock) rfl rfl
  | on p c =>
      have hmade : f.made (.on p c) = f.attempt p c.op := by
        unfold made attempt
        simp only [TaskCall.on_made]
      rw [hmade]
      apply h.attempt_moves
      intro q
      rw [TaskCall.op_eq_cancel_iff]
      constructor
      · rintro (hq | hq)
        · cases hq
          exact ⟨rfl, rfl⟩
        · cases hq
      · rintro ⟨rfl, rfl⟩
        exact Or.inl rfl
  | cancelToken p =>
      apply h.attempt_moves
      intro q
      constructor
      · rintro (hq | hq)
        · cases hq
        · cases hq
          exact ⟨rfl, rfl⟩
      · rintro ⟨-, rfl⟩
        exact Or.inr rfl

theorem equipped_token_eq_some {origin t : CancelToken} (hfree : f.token p = none) :
    (f.equipped p origin).token q = some t
      ↔ (q = p ∧ t = origin ++ [f.tokens.made]) ∨ f.token q = some t := by
  unfold equipped
  by_cases hq : q = p
  · subst hq
    simp [hfree, eq_comm]
  · simp [hq]

/-- A new number is in no token yet. -/
theorem Linked.made_notMem {t : CancelToken} (h : f.Linked) (ht : f.token p = some t) :
    f.tokens.made ∉ t := by
  intro hmem
  exact (h.numbers p t ht _ hmem).false

theorem Linked.grow {origin : CancelToken} (h : f.Linked) (hfree : ¬ f.Stands p)
    (horigin : f.Origin p origin)
    (hmark : mark f'.trees = Function.update (mark f.trees) p (some false))
    (htoken : f'.token = (f.equipped p origin).token)
    (htokens : f'.tokens = (f.equipped p origin).tokens) : f'.Linked := by
  have hnone : f.token p = none := by
    rw [← Option.not_isSome_iff_eq_none, h.stands]
    exact hfree
  have hcases : ∀ {q t}, f'.token q = some t
      ↔ (q = p ∧ t = origin ++ [f.tokens.made]) ∨ f.token q = some t := by
    intro q t
    rw [htoken]
    exact equipped_token_eq_some hnone
  refine ⟨?stands, ?order, ?nonempty, ?numbers, ?cancelled⟩
  case stands =>
      intro q
      rw [← isSome_mark, hmark, htoken]
      by_cases hq : q = p
      · subst hq
        simp [equipped]
      · rw [Function.update_of_ne hq, isSome_mark, ← h.stands]
        simp [equipped, Function.update_of_ne hq]
  case order =>
      intro q r t u ht hu
      rcases hcases.mp ht with ⟨rfl, rfl⟩ | ht
      · rcases hcases.mp hu with ⟨rfl, rfl⟩ | hu
        · simp
        · -- The new token is not before an old one, and nothing stands yet below its task.
          constructor
          · intro hbefore
            have hmem : f.tokens.made ∈ origin ++ [f.tokens.made] := by simp
            exact absurd (hbefore.subset hmem) (h.made_notMem hu)
          · rintro ⟨hk, hbelow⟩
            have hstands : f.Stands r := (h.stands r).mp (by rw [hu]; rfl)
            have habove := hstands.above hbelow
            rw [← hk] at habove
            exact absurd habove hfree
      · rcases hcases.mp hu with ⟨rfl, rfl⟩ | hu
        · rw [List.prefix_concat_iff, ← horigin.above q t ht]
          constructor
          · rintro (rfl | hprefix)
            · exact absurd (by simp) (h.made_notMem ht)
            · exact hprefix
          · exact Or.inr
        · exact h.order q r t u ht hu
  case nonempty =>
      intro q t ht
      rcases hcases.mp ht with ⟨-, rfl⟩ | ht
      · simp
      · exact h.nonempty q t ht
  case numbers =>
      intro q t ht n hn
      rw [htokens]
      apply Nat.lt_succ_of_le
      rcases hcases.mp ht with ⟨-, rfl⟩ | ht
      · rcases List.mem_append.mp hn with hn | hn
        · exact (horigin.numbers n hn).le
        · exact (List.mem_singleton.mp hn).le
      · exact (h.numbers q t ht n hn).le
  case cancelled =>
      intro t
      rw [htokens]
      refine (h.cancelled t).trans ?_
      rw [hmark]
      constructor
      · rintro ⟨q, ht, htrue⟩
        have hq : q ≠ p := by
          rintro rfl
          rw [hnone] at ht
          cases ht
        exact ⟨q, hcases.mpr (Or.inr ht), by rw [Function.update_of_ne hq, htrue]⟩
      · rintro ⟨q, ht, htrue⟩
        have hq : q ≠ p := by
          rintro rfl
          rw [Function.update_self] at htrue
          cases htrue
        rw [Function.update_of_ne hq] at htrue
        rcases hcases.mp ht with ⟨hself, -⟩ | ht
        · exact absurd hself hq
        · exact ⟨q, ht, htrue⟩

theorem Linked.heed {t : CancelToken} (h : f.Linked) (hstands : f.Stands p)
    (ht : f.token p = some t)
    (hmark : mark f'.trees = Function.update (mark f.trees) p (some true))
    (htoken : f'.token = f.token)
    (htokens : f'.tokens = { f.tokens with cancelled := t :: f.tokens.cancelled }) :
    f'.Linked := by
  refine ⟨?stands, ?order, ?nonempty, ?numbers, ?cancelled⟩
  case stands =>
      intro q
      rw [htoken, ← isSome_mark, hmark]
      by_cases hq : q = p
      · subst hq
        rw [Function.update_self, h.stands]
        simp [hstands]
      · rw [Function.update_of_ne hq, isSome_mark, h.stands]
  all_goals rw [htoken]
  case order => exact h.order
  case nonempty => exact h.nonempty
  case numbers =>
      rw [htokens]
      exact h.numbers
  case cancelled =>
      intro u
      rw [htokens, hmark, List.mem_cons, h.cancelled]
      constructor
      · rintro (rfl | ⟨q, hu, htrue⟩)
        · exact ⟨p, ht, Function.update_self ..⟩
        · by_cases hq : q = p
          · exact ⟨q, hu, by rw [hq, Function.update_self]⟩
          · exact ⟨q, hu, by rw [Function.update_of_ne hq, htrue]⟩
      · rintro ⟨q, hu, htrue⟩
        by_cases hq : q = p
        · subst hq
          left
          exact Option.some.inj (hu.symm.trans ht)
        · rw [Function.update_of_ne hq] at htrue
          exact Or.inr ⟨q, hu, htrue⟩

/-- A call keeps the tokens standing as the tasks do. -/
theorem Linked.moves (h : f.Linked) (hmoves : f.Moves c f') : f'.Linked := by
  cases hmoves with
  | rests _ hmark htoken htokens =>
      have hstands : ∀ p, f'.Stands p ↔ f.Stands p := by
        intro p
        rw [← isSome_mark, ← isSome_mark, hmark]
      refine ⟨?_, ?_, ?_, ?_, ?_⟩
      all_goals simp only [htoken, htokens, hmark, hstands]
      · exact h.stands
      · exact h.order
      · exact h.nonempty
      · exact h.numbers
      · exact h.cancelled
  | grows p origin _ hfree horigin hmark htoken htokens =>
      exact h.grow hfree horigin hmark htoken htokens
  | heeds p t _ hstands ht hmark htoken htokens =>
      exact h.heed hstands ht hmark htoken htokens

/-- A task is marked by a call that cancels it, and else as it was. -/
theorem Moves.mark_iff (hmoves : f.Moves c f') :
    mark f'.trees p = some true ↔ mark f.trees p = some true ∨ c.Asks p ∧ f.Stands p := by
  cases hmoves with
  | rests hasks hmark _ _ =>
      rw [hmark]
      constructor
      · exact Or.inl
      · rintro (htrue | ⟨hp, hstands⟩)
        · exact htrue
        · exact absurd hstands (hasks p hp)
  | grows q origin hasks hfree _ hmark _ _ =>
      have hnone : ¬ (c.Asks p ∧ f.Stands p) := fun hp => hasks p hp.1
      rw [hmark, or_iff_left hnone]
      by_cases hq : p = q
      · subst hq
        rw [Function.update_self, mark_of_not_stands hfree]
        simp
      · rw [Function.update_of_ne hq]
  | heeds q t hasks hstands _ hmark _ _ =>
      rw [hmark, hasks]
      by_cases hq : p = q
      · subst hq
        rw [Function.update_self]
        simp [hstands]
      · rw [Function.update_of_ne hq]
        simp [hq]

/-! ## All calls -/

theorem after_concat (calls : List ForestCall) (c : ForestCall) :
    after (calls ++ [c]) = (after calls).made c :=
  List.foldl_concat _ _ _ _

theorem linked_after (calls : List ForestCall) : (after calls).Linked := by
  induction calls using List.reverseRecOn with
  | nil =>
      refine ⟨?_, ?_, ?_, ?_, ?_⟩
      · intro p
        simp [after, Stands, at?]
      · intro p q t u ht
        cases ht
      · intro p t ht
        cases ht
      · intro p t ht
        cases ht
      · intro t
        simp [after]
  | append_singleton calls c ih =>
      rw [after_concat]
      exact ih.moves (ih.made_moves c)

theorem asked_concat :
    Asked (calls ++ [c]) p ↔ Asked calls p ∨ c.Asks p ∧ (after calls).Stands p := by
  constructor
  · rintro ⟨before, d, later, hcalls, hasks, hstands⟩
    rcases List.eq_nil_or_concat later with rfl | ⟨later, e, rfl⟩
    · obtain ⟨rfl, hd⟩ := List.append_inj' hcalls rfl
      cases hd
      exact Or.inr ⟨hasks, hstands⟩
    · left
      have hsplit : calls ++ [c] = (before ++ d :: later) ++ [e] := by
        simpa using hcalls
      obtain ⟨rfl, -⟩ := List.append_inj' hsplit rfl
      exact ⟨before, d, later, rfl, hasks, hstands⟩
  · rintro (⟨before, d, later, rfl, hasks, hstands⟩ | ⟨hasks, hstands⟩)
    · exact ⟨before, d, later ++ [c], by simp, hasks, hstands⟩
    · exact ⟨calls, c, [], rfl, hasks, hstands⟩

/-- The tasks that are marked are those that were cancelled. -/
theorem mark_iff_asked (calls : List ForestCall) (p : Spot) :
    mark (after calls).trees p = some true ↔ Asked calls p := by
  induction calls using List.reverseRecOn with
  | nil =>
      constructor
      · intro h
        cases h
      · rintro ⟨before, c, later, hcalls, -, -⟩
        simp at hcalls
  | append_singleton calls c ih =>
      rw [after_concat, ((linked_after calls).made_moves c).mark_iff, ih, asked_concat]

/-- A token is cancelled just if the task or one above it was. -/
theorem isCancellationRequested_iff {isCancelled : List CancelToken → CancelToken → Bool}
    (hcancels : CancelsDerived isCancelled) (calls : List ForestCall)
    (hstands : (after calls).Stands p) :
    (after calls).isCancellationRequested isCancelled p = true
      ↔ ∃ a, a <+: p.2 ∧ Asked calls (p.1, a) := by
  have hlinked := linked_after calls
  obtain ⟨t, ht⟩ := hlinked.token_of_stands hstands
  unfold isCancellationRequested
  rw [ht, Option.any_some, hcancels]
  constructor
  · rintro ⟨u, hu, hprefix⟩
    obtain ⟨q, hq, hmark⟩ := (hlinked.cancelled u).mp hu
    obtain ⟨hk, habove⟩ := (hlinked.order q p u t hq ht).mp hprefix
    refine ⟨q.2, habove, ?_⟩
    rw [← hk]
    exact (mark_iff_asked calls q).mp hmark
  · rintro ⟨a, habove, hasked⟩
    obtain ⟨u, hu⟩ := hlinked.token_of_stands (hstands.above habove)
    refine ⟨u, (hlinked.cancelled u).mpr ⟨_, hu, (mark_iff_asked calls _).mpr hasked⟩, ?_⟩
    exact (hlinked.order _ p u t hu ht).mpr ⟨rfl, habove⟩

/-- A tree answers by its marks as the tokens do. -/
theorem cancelledAt_iff_asked {tr : Tracker} {a : Address} {k : Nat}
    (htree : (after calls).trees[k]? = some tr) :
    tr.cancelledAt a = true ↔ ∃ b, b <+: a ∧ Asked calls (k, b) := by
  have hmark : ∀ b, tr.requestedAt b = some true ↔ Asked calls (k, b) := by
    intro b
    rw [← mark_iff_asked]
    unfold mark
    rw [htree, Option.bind_some]
  rw [Tracker.cancelledAt_iff]
  simp only [hmark]

/-- A change of one member is not seen in a list through what it leaves alone. -/
theorem map_modify_of_same {α β : Type} {see : α → β} {g : α → α} (h : ∀ x, see (g x) = see x)
    (xs : List α) (k : Nat) : (xs.modify k g).map see = xs.map see := by
  apply List.ext_getElem?
  intro j
  rw [List.getElem?_map, List.getElem?_map, List.getElem?_modify]
  cases xs[j]? with
  | none => rfl
  | some x =>
      by_cases hj : k = j
      · simp [hj, h]
      · simp [hj]

theorem view_eq (f : Forest) (p : Spot) :
    f.view p = (f.trees.map fun tr a => (tr.at? a).map Task.view)[p.1]?.bind (· p.2) := by
  unfold view at?
  rw [List.getElem?_map]
  cases f.trees[p.1]? with
  | none => rfl
  | some tr => rfl

/-- A request changes nothing that is seen of any task, and is not announced. -/
theorem made_unseen (f : Forest) (hasks : c.Asks p) :
    (f.made c).view = f.view ∧ (f.made c).logs = f.logs := by
  have htrees : (f.made c).trees = f.trees.modify p.1 (·.attempt p.2 .cancel) := by
    rcases hasks with rfl | rfl
    · unfold made
      simp only [TaskCall.on_made]
      rfl
    · rfl
  constructor
  · funext q
    rw [view_eq, view_eq, htrees, map_modify_of_same]
    intro tr
    funext a
    exact (tr.attempt_cancel_view p.2 a).1
  · unfold logs
    rw [htrees, map_modify_of_same]
    intro tr
    exact (tr.attempt_cancel_view p.2 []).2

/-- Cancellation reaches a task and all tasks below it, and changes nothing else. -/
structure CancelsBelow (isCancelled : List CancelToken → CancelToken → Bool)
    (calls : List ForestCall) : Prop where
  /-- A task says that it should stop just if it or a task above it was cancelled, whenever that
  was. -/
  requested : ∀ p, (after calls).Stands p →
    ((after calls).isCancellationRequested isCancelled p = true
      ↔ ∃ a, a <+: p.2 ∧ Asked calls (p.1, a))
  /-- Its tree says the same. -/
  marked : ∀ k tr a, (after calls).trees[k]? = some tr →
    (tr.cancelledAt a = true ↔ ∃ b, b <+: a ∧ Asked calls (k, b))
  /-- One more request changes no status, percentage, message or list of subtasks. -/
  unseen : ∀ c p, c.Asks p → (after (calls ++ [c])).view = (after calls).view
  silent : ∀ c p, c.Asks p → (after (calls ++ [c])).logs = (after calls).logs

theorem cancels_below {isCancelled : List CancelToken → CancelToken → Bool}
    (hcancels : CancelsDerived isCancelled) (calls : List ForestCall) :
    CancelsBelow isCancelled calls := by
  refine ⟨?requested, ?marked, ?unseen, ?silent⟩
  case requested =>
      intro p hstands
      exact isCancellationRequested_iff hcancels calls hstands
  case marked =>
      intro k tr a htree
      exact cancelledAt_iff_asked htree
  case unseen =>
      intro c p hasks
      rw [after_concat]
      exact (made_unseen _ hasks).1
  case silent =>
      intro c p hasks
      rw [after_concat]
      exact (made_unseen _ hasks).2

/-- Of two trees the first has one of its tasks cancelled, by its token, between the additions
of two subtasks. -/
def cancelledBuild : List ForestCall :=
  [.plant "build", .plant "test", .on (0, []) (.addChild "compile"), .on (0, []) (.addChild "link"),
   .on (0, [0]) (.addChild "parse"), .cancelToken (0, [0]), .on (0, [0]) (.addChild "emit")]

/-- The task and both of its subtasks are asked to stop, and nothing above or beside it is. -/
theorem cancels_below_build :
    CancelsBelow CancelToken.isCancelled cancelledBuild
    ∧ (∀ a ∈ [[0], [0, 0], [0, 1]], (after cancelledBuild).Stands (0, a)
      ∧ (after cancelledBuild).isCancellationRequested CancelToken.isCancelled (0, a) = true)
    ∧ ∀ p ∈ [(0, []), (0, [1]), (1, [])], (after cancelledBuild).Stands p
      ∧ (after cancelledBuild).isCancellationRequested CancelToken.isCancelled p = false :=
  ⟨cancels_below CancelToken.cancelsDerived cancelledBuild, by decide +kernel, by decide +kernel⟩

end Forest

end Reconcile
