import Reconcile.Proofs.Calls

/-!
# Requests to cancel in one tree

A request is a mark at one node, and no operation but `cancel` sets one
(`requestedAt_attempt_other`).  A task is asked to stop if it or a task above it is marked
(`cancelledAt_iff`).  Nothing else is read off the marks: without them (`Task.unrequested`) a
tree has the same nodes, and each of them shows the same, its percentage included, which is
computed from all that stands below it (`percentage_unrequested`).  So a request is not seen
at any node of the tree (`attempt_cancel_view`).
-/

namespace Reconcile

/-! ## Trees without requests -/

/-- What a node shows of itself and of its subtasks. -/
structure Task.View where
  status : Status
  percentage : Float
  message : String
  children : List String

namespace Task

def view (t : Task) : View :=
  { status := t.status, percentage := t.percentage, message := t.state.message
    children := t.children.map Task.name }

mutual

/-- The tree as it is when nobody asks it to stop. -/
def unrequested : Task → Task
  | .node s cs => .node s.told (unrequestedAll cs)

def unrequestedAll : List Task → List Task
  | [] => []
  | c :: cs => unrequested c :: unrequestedAll cs

end

theorem unrequestedAll_eq_map (cs : List Task) : unrequestedAll cs = cs.map unrequested := by
  induction cs with
  | nil => rfl
  | cons c cs ih => rw [unrequestedAll, ih, List.map_cons]

mutual

theorem percentage_unrequested : ∀ t : Task, t.unrequested.percentage = t.percentage
  | .node s [] => rfl
  | .node s (c :: cs) => by
      have hsum := weightedSum_unrequestedAll 0 0 (c :: cs)
      rw [unrequestedAll] at hsum
      rw [unrequested, unrequestedAll, percentage, percentage, hsum]

theorem weightedSum_unrequestedAll : ∀ (sum weights : Float) (cs : List Task),
    weightedSum sum weights (unrequestedAll cs) = weightedSum sum weights cs
  | sum, weights, [] => rfl
  | sum, weights, .node s gs :: cs => by
      have hfirst := percentage_unrequested (.node s gs)
      rw [unrequested] at hfirst
      rw [unrequestedAll, unrequested, weightedSum, weightedSum, hfirst]
      exact weightedSum_unrequestedAll _ _ cs

end

theorem view_unrequested (t : Task) : t.unrequested.view = t.view := by
  obtain ⟨s, cs⟩ := t
  unfold view
  rw [percentage_unrequested, unrequested, unrequestedAll_eq_map, children, children,
    List.map_map]
  have hnames : cs.map (Task.name ∘ unrequested) = cs.map Task.name := by
    apply List.map_congr_left
    rintro ⟨s', cs'⟩ _
    rfl
  rw [hnames]
  rfl

theorem at?_unrequested (a : Address) (t : Task) :
    t.unrequested.at? a = (t.at? a).map unrequested := by
  induction a generalizing t with
  | nil => rfl
  | cons i a ih =>
      obtain ⟨s, cs⟩ := t
      rw [unrequested, unrequestedAll_eq_map, at?_cons, at?_cons, List.getElem?_map]
      cases cs[i]? with
      | none => rfl
      | some c => exact ih c

theorem unrequested_replaceAt {t old new : Task} {a : Address} (h : t.at? a = some old)
    (hnew : new.unrequested = old.unrequested) :
    (replaceAt new a t).unrequested = t.unrequested := by
  induction a generalizing t with
  | nil =>
      obtain rfl : t = old := Option.some.inj h
      exact hnew
  | cons i a ih =>
      obtain ⟨s, cs⟩ := t
      rw [at?_cons] at h
      obtain ⟨c, hc, hrest⟩ := Option.bind_eq_some_iff.mp h
      rw [replaceAt, hc]
      simp only
      rw [unrequested, unrequested, unrequestedAll_eq_map, unrequestedAll_eq_map, List.map_set,
        ih hrest]
      -- The subtask is put back where it came from.
      obtain ⟨hi, rfl⟩ := List.getElem?_eq_some_iff.mp hc
      rw [← List.map_set, List.set_getElem_self]

/-- Trees that are the same without requests show the same everywhere. -/
theorem view_at?_congr {t u : Task} (h : t.unrequested = u.unrequested) (a : Address) :
    (t.at? a).map view = (u.at? a).map view := by
  have hview : ∀ v : Task, (v.at? a).map view = (v.unrequested.at? a).map view := by
    intro v
    rw [at?_unrequested, Option.map_map]
    exact congrArg (Option.map · (v.at? a)) (funext fun w => (view_unrequested w).symm)
  rw [hview t, hview u, h]

end Task

/-! ## What operations do to a node -/

namespace Task

variable {s : TaskState} {cs : List Task} {t : Task} {changes : List Change}

theorem eq_of_addChild {now : Time} {name : String} {weight : Float}
    (h : (node s cs).perform now (.addChild name weight) = .ok (t, changes)) :
    t = .node s (cs ++ [.node (.fresh name weight) []]) := by
  simp only [perform] at h
  split at h
  · cases h
  · split at h
    · cases h
    · cases h
      rfl

theorem keeps_of_transition {now : Time} {next : Status} {message : Option String}
    (h : (node s cs).transition now next message = .ok (t, changes)) :
    ∃ s', t = .node s' cs ∧ s'.cancelRequested = s.cancelRequested := by
  rw [transition_eq] at h
  split at h
  · cases h
    exact ⟨_, rfl, s.passedAt_cancelRequested now next message cs.isEmpty⟩
  · cases h

/-- But for requests and for new subtasks, a node keeps its mark and its subtasks. -/
theorem keeps_of_perform {now : Time} {op : TaskOp} (hcancel : op ≠ .cancel)
    (hadd : ∀ name weight, op ≠ .addChild name weight)
    (h : (node s cs).perform now op = .ok (t, changes)) :
    ∃ s', t = .node s' cs ∧ s'.cancelRequested = s.cancelRequested := by
  cases op with
  | addChild name weight => exact absurd rfl (hadd name weight)
  | setPercentage value =>
      simp only [perform] at h
      split at h
      · cases h
      · split at h
        · cases h
        · cases h
          exact ⟨_, rfl, rfl⟩
  | setMessage text =>
      simp only [perform] at h
      split at h
      · cases h
      · cases h
        exact ⟨_, rfl, rfl⟩
  | start => exact keeps_of_transition h
  | complete => exact keeps_of_transition h
  | fault message => exact keeps_of_transition h
  | markCancelled => exact keeps_of_transition h
  | cancel => exact absurd rfl hcancel

end Task

/-! ## Marks -/

namespace Tracker

variable {tr : Tracker} {a : Address} {op : TaskOp}

/-- Whether cancellation was requested of the very node at an address, where one stands. -/
def requestedAt (tr : Tracker) (a : Address) : Option Bool :=
  Task.seen TaskState.cancelRequested tr.root a

theorem isSome_requestedAt (tr : Tracker) (a : Address) :
    (tr.requestedAt a).isSome = (tr.at? a).isSome :=
  Option.isSome_map

theorem requestedAt_new (name : String) (clock : Nat → Time) :
    (Tracker.new name clock).requestedAt = Function.update (fun _ => none) [] (some false) := by
  funext a
  cases a with
  | nil => rfl
  | cons i a =>
      rw [Function.update_of_ne (by simp)]
      rfl

/-- A task is asked to stop where it or a task above it is marked. -/
theorem cancelledAt_iff :
    tr.cancelledAt a = true ↔ ∃ b, b <+: a ∧ tr.requestedAt b = some true := by
  obtain ⟨t, log, clock⟩ := tr
  unfold cancelledAt requestedAt
  simp only
  induction a generalizing t with
  | nil =>
      constructor
      · intro h
        exact ⟨[], List.prefix_rfl, congrArg some h⟩
      · rintro ⟨b, hb, h⟩
        obtain rfl := List.prefix_nil.mp hb
        exact Option.some.inj h
  | cons i a ih =>
      obtain ⟨s, cs⟩ := t
      rw [Task.cancelledAt, Bool.or_eq_true]
      constructor
      · rintro (h | h)
        · exact ⟨[], List.nil_prefix, congrArg some h⟩
        · cases hc : cs[i]? with
          | none =>
              rw [hc] at h
              cases h
          | some c =>
              rw [hc] at h
              obtain ⟨b, hb, hmark⟩ := (ih c).mp h
              refine ⟨i :: b, List.cons_prefix_cons.mpr ⟨rfl, hb⟩, ?_⟩
              unfold Task.seen
              rw [Task.at?_cons, hc]
              exact hmark
      · rintro ⟨b, hb, hmark⟩
        cases b with
        | nil => exact Or.inl (Option.some.inj hmark)
        | cons j b =>
            obtain ⟨rfl, hbelow⟩ := List.cons_prefix_cons.mp hb
            unfold Task.seen at hmark
            rw [Task.at?_cons] at hmark
            right
            cases hc : cs[j]? with
            | none =>
                rw [hc] at hmark
                cases hmark
            | some c =>
                rw [hc] at hmark
                exact (ih c).mpr ⟨b, hbelow, hmark⟩

theorem attempt_of_at?_eq_none (h : tr.at? a = none) : tr.attempt a op = tr :=
  attempt_of_ok (perform_of_none h)

theorem attempt_cancel_eq {s : TaskState} {cs : List Task} (h : tr.at? a = some (.node s cs)) :
    tr.attempt a .cancel = tr.put a (.node { s with cancelRequested := true } cs) [] :=
  attempt_of_ok (perform_of_at? h)

theorem requestedAt_attempt_cancel {t : Task} (h : tr.at? a = some t) :
    (tr.attempt a .cancel).requestedAt = Function.update tr.requestedAt a (some true) := by
  obtain ⟨s, cs⟩ := t
  rw [attempt_cancel_eq h]
  exact Task.seen_replaceAt TaskState.cancelRequested h

/-- A request is not seen at any node, and it is not announced. -/
theorem attempt_cancel_view (tr : Tracker) (a b : Address) :
    ((tr.attempt a .cancel).at? b).map Task.view = (tr.at? b).map Task.view
      ∧ (tr.attempt a .cancel).log = tr.log := by
  cases h : tr.at? a with
  | none =>
      rw [attempt_of_at?_eq_none h]
      exact ⟨rfl, rfl⟩
  | some t =>
      obtain ⟨s, cs⟩ := t
      rw [attempt_cancel_eq h]
      constructor
      · apply Task.view_at?_congr
        exact Task.unrequested_replaceAt h rfl
      · exact List.append_nil tr.log

theorem requestedAt_attempt_addChild {name : String} {weight : Float} {t t' : Task}
    {changes : List Change} (h : tr.at? a = some t)
    (hop : t.perform tr.now (.addChild name weight) = .ok (t', changes)) :
    (tr.attempt a (.addChild name weight)).requestedAt
      = Function.update tr.requestedAt (a ++ [t.children.length]) (some false) := by
  have hattempt : tr.attempt a (.addChild name weight) = tr.put a t' changes := by
    apply attempt_of_ok
    rw [perform_of_at? h, hop]
  obtain ⟨s, cs⟩ := t
  rw [hattempt, Task.eq_of_addChild hop]
  exact Task.seen_replaceAt_snoc TaskState.cancelRequested (.fresh name weight) h

theorem attempt_of_refused {t : Task} {e : TaskFault} (h : tr.at? a = some t)
    (hop : t.perform tr.now op = .error e) : tr.attempt a op = tr := by
  apply attempt_of_error (e := e)
  rw [perform_of_at? h, hop]

/-- Other operations leave the marks alone, and set none. -/
theorem requestedAt_attempt_other (tr : Tracker) (a : Address) (hcancel : op ≠ .cancel)
    (hadd : ∀ name weight, op ≠ .addChild name weight) :
    (tr.attempt a op).requestedAt = tr.requestedAt := by
  cases h : tr.at? a with
  | none => rw [attempt_of_at?_eq_none h]
  | some t =>
      obtain ⟨s, cs⟩ := t
      cases hop : (Task.node s cs).perform tr.now op with
      | error e => rw [attempt_of_refused h hop]
      | ok result =>
          obtain ⟨t', changes⟩ := result
          obtain ⟨s', rfl, hmark⟩ := Task.keeps_of_perform hcancel hadd hop
          have hattempt : tr.attempt a op = tr.put a (.node s' cs) changes := by
            apply attempt_of_ok
            rw [perform_of_at? h, hop]
          have hself : tr.requestedAt a = some s'.cancelRequested := by
            rw [hmark]
            exact congrArg (Option.map fun u : Task => u.state.cancelRequested) h
          rw [hattempt]
          refine (Task.seen_replaceAt TaskState.cancelRequested h).trans ?_
          rw [← hself]
          exact Function.update_eq_self a tr.requestedAt

end Tracker

end Reconcile
