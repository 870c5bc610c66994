import Reconcile.Proofs.Calls
import Mathlib.Data.List.Infix

/-!
# The life of a task

Whatever is called on the nodes of a tree, and in whatever order, every node goes its way
from created to its end and stays there.  An attempt moves the whole tree in one of three
ways (`Tracker.Moves`); seen from one node that is a step of its own, a new subtask, or
nothing (`TaskState.Continues`), and what a node has lived through (`TaskState.Lived`) is
kept by each of them.

The record of a node that has ended, its times included, never changes again, and the node
is not announced any more (`Holds.stays`).
-/

namespace Reconcile

/-! ## Moves of a tree -/

namespace TaskState

/-- A task that has not ended reports, or passes to what its status allows. -/
def Evolves (leaf : Bool) (s s' : TaskState) : Prop :=
  s.status.isFinal = false ∧
    (s.Reports s' ∨ ∃ next message, s.status.allows next = true ∧ s' = s.passed next message leaf)

variable {s s' : TaskState} {leaf : Bool}

theorem Evolves.name_eq (h : s.Evolves leaf s') : s'.name = s.name := by
  obtain ⟨-, hreports | ⟨next, message, -, rfl⟩⟩ := h
  · exact hreports.name_eq
  · exact s.passed_name next message leaf

end TaskState

namespace Tracker

/-- What an attempt may do to all that is recorded: nothing, a step of one node, or one more
subtask. -/
inductive Moves (tr tr' : Tracker) : Prop where
  | rests (h : tr'.recorded = tr.recorded)
  | evolves {a : Address} {s s' : TaskState} {kids : List TaskState} (hnode : tr.Holds a s kids)
      (hstep : s.Evolves kids.isEmpty s') (h : tr.Writes a s' tr')
  | grows {a : Address} {s : TaskState} {kids : List TaskState} (name : String) (weight : Float)
      (hnode : tr.Holds a s kids) (hopen : s.status.isFinal = false)
      (h : tr.Writes (a ++ [kids.length]) (.fresh name weight) tr')

variable {tr tr' : Tracker} {a b : Address} {s : TaskState} {kids : List TaskState}

theorem put_moves {cs : List Task} {t : Task} {changes : List Change}
    (hnode : tr.at? a = some (.node s cs)) (hstep : Task.Step s cs t changes) :
    tr.Moves (tr.put a t changes) := by
  have hholds := holds_of_at? hnode
  have hleaf : (cs.map (·.state.told)).isEmpty = cs.isEmpty := by simp
  cases hstep with
  | heeded => exact .rests (put_heeded_recorded hnode)
  | progressed value hopen hnone =>
      exact .evolves hholds ⟨hopen, Or.inl (.percentage s.told value)⟩
        (put_writes { s with percentage := value } _ hnode rfl)
  | said text hopen =>
      exact .evolves hholds ⟨hopen, Or.inl (.message s.told text)⟩
        (put_writes { s with message := text } _ hnode rfl)
  | passed now next message hallows =>
      have hpassed : s.told.Evolves (cs.map (·.state.told)).isEmpty
          (s.passedAt now next message cs.isEmpty).told := by
        rw [TaskState.told_passedAt, hleaf]
        exact ⟨Status.not_final_of_allows hallows, Or.inr ⟨next, message, hallows, rfl⟩⟩
      exact .evolves hholds hpassed
        (put_writes _ _ hnode (s.passedAt_cancelRequested now next message cs.isEmpty))
  | grew name weight hopen =>
      refine .grows name weight hholds hopen ?_
      rw [Task.children, List.length_map]
      exact put_writes_snoc (.fresh name weight) _ hnode

theorem attempt_moves (tr : Tracker) (a : Address) (op : TaskOp) : tr.Moves (tr.attempt a op) := by
  rcases tr.attempt_cases a op with hsame | ⟨s, cs, t, changes, hnode, hstep, hput⟩
  · exact .rests (by rw [hsame])
  · rw [hput]
    exact put_moves hnode hstep

end Tracker

/-! ## Moves seen from one node -/

/-- What a move of the tree is to one node and its subtasks. -/
inductive TaskState.Continues (s : TaskState) (kids : List TaskState) :
    TaskState → List TaskState → Prop where
  | rests {kids' : List TaskState} (hnames : kids'.map TaskState.name = kids.map TaskState.name) :
      Continues s kids s kids'
  | evolves {s' : TaskState} (hstep : s.Evolves kids.isEmpty s') : Continues s kids s' kids
  | grows (k : TaskState) (hopen : s.status.isFinal = false) : Continues s kids s (kids ++ [k])

namespace Tracker

variable {tr tr' : Tracker} {a b : Address} {s s₁ : TaskState} {kids kids₁ : List TaskState}

theorem Holds.unique (h : tr.Holds a s kids) (h' : tr.Holds a s₁ kids₁) :
    s₁ = s ∧ kids₁ = kids := by
  obtain ⟨t, ht, rfl, rfl⟩ := h
  obtain ⟨t', ht', rfl, rfl⟩ := h'
  rw [ht] at ht'
  cases ht'
  exact ⟨rfl, rfl⟩

/-- A node whose subtask is written keeps what it tells and how its subtasks are called. -/
theorem Holds.writes_kid {s₂ : TaskState} {n : Nat} (h : tr.Holds b s kids)
    (hkid : kids[n]? = some s₁) (hname : s₂.name = s₁.name)
    (hwrites : tr.Writes (b ++ [n]) s₂ tr') :
    ∃ kids', tr'.Holds b s kids' ∧ kids'.map TaskState.name = kids.map TaskState.name := by
  obtain ⟨hlt, hget⟩ := List.getElem?_eq_some_iff.mp hkid
  have hsplit : kids = kids.take n ++ s₁ :: kids.drop (n + 1) := by
    rw [← hget, List.getElem_cons_drop, List.take_append_drop]
  have hlength : (kids.take n).length = n := List.length_take_of_le hlt.le
  rw [hsplit] at h
  rw [← hlength] at hwrites
  refine ⟨_, h.writes_child hwrites, ?_⟩
  conv_rhs => rw [hsplit]
  simp [hname]

/-- A node goes on by any move of the tree. -/
theorem Holds.continues (h : tr.Holds b s kids) (hmove : tr.Moves tr') :
    ∃ s' kids', tr'.Holds b s' kids' ∧ s.Continues kids s' kids' := by
  cases hmove with
  | rests hsame =>
      exact ⟨s, kids, h.of_same fun c _ => told_of_recorded (congrFun hsame c), .rests rfl⟩
  | @evolves a s₁ s₂ kids₁ hnode hstep hwrites =>
      by_cases hself : b = a
      · subst hself
        obtain ⟨rfl, rfl⟩ := h.unique hnode
        exact ⟨s₂, kids₁, h.writes_self hwrites, .evolves hstep⟩
      · by_cases hkid : ∃ n, a = b ++ [n]
        · obtain ⟨n, rfl⟩ := hkid
          have hkid : kids[n]? = some s₁ := by rw [← h.told_kid, hnode.told_self]
          obtain ⟨kids', hholds, hnames⟩ := h.writes_kid hkid hstep.name_eq hwrites
          exact ⟨s, kids', hholds, .rests hnames⟩
        · have hfar : ∀ c, b.Near c → tr'.told c = tr.told c := by
            rintro c (rfl | ⟨n, rfl⟩)
            · exact hwrites.told_of_ne hself
            · exact hwrites.told_of_ne fun heq => hkid ⟨n, heq.symm⟩
          exact ⟨s, kids, h.of_same hfar, .rests rfl⟩
  | @grows a s₁ kids₁ name weight hnode hopen hwrites =>
      by_cases hself : a = b
      · subst hself
        obtain ⟨rfl, rfl⟩ := h.unique hnode
        exact ⟨s₁, _, h.writes_new hwrites, .grows _ hopen⟩
      · have hfree : tr.told (a ++ [kids₁.length]) = none := by
          rw [hnode.told_kid, List.getElem?_eq_none le_rfl]
        have hfar : ∀ c, b.Near c → tr'.told c = tr.told c := by
          rintro c (rfl | ⟨n, rfl⟩)
          · refine hwrites.told_of_ne ?_
            rintro rfl
            rw [h.told_self] at hfree
            cases hfree
          · exact hwrites.told_of_ne fun heq => hself (List.append_inj_left' heq rfl).symm
        exact ⟨s, kids, h.of_same hfar, .rests rfl⟩

/-- Where no node stands, none stands after a move, or a fresh one. -/
theorem told_none_continues (h : tr.told b = none) (hmove : tr.Moves tr') :
    tr'.told b = none ∨ ∃ name weight, tr'.Holds b (.fresh name weight) [] := by
  cases hmove with
  | rests hsame => exact Or.inl (by rw [told_of_recorded (congrFun hsame b), h])
  | @evolves a s₁ s₂ kids₁ hnode _ hwrites =>
      refine Or.inl ?_
      rw [hwrites.told_of_ne, h]
      rintro rfl
      rw [hnode.told_self] at h
      cases h
  | @grows a s₁ kids₁ name weight hnode _ hwrites =>
      by_cases hnew : b = a ++ [kids₁.length]
      · subst hnew
        refine Or.inr ⟨name, weight, holds_iff.mpr ⟨hwrites.told_self, fun n => ?_⟩⟩
        rw [hwrites.told_of_ne (Address.child_ne_self _ n), told_append_of_none h]
        rfl
      · exact Or.inl (by rw [hwrites.told_of_ne hnew, h])

end Tracker

/-! ## Histories -/

namespace Status

/-- The ways from created to an end. -/
def lives : List (List Status) :=
  [[.created, .running, .completed], [.created, .running, .faulted],
   [.created, .running, .cancelled], [.created, .faulted], [.created, .cancelled]]

/-- A start of one of the ways from created to an end. -/
def IsPath (past : List Status) : Prop :=
  ∃ life ∈ lives, past <+: life

/-- What was seen of statuses so far, and one more; it is noted if it is another than the
last one. -/
def note (past : List Status) : Option Status → List Status
  | none => past
  | some s => if past.getLast? = some s then past else past ++ [s]

theorem isPath_iff {past : List Status} : IsPath past ↔ past ∈ lives.flatMap List.inits := by
  simp [IsPath, List.mem_flatMap]

theorem IsPath.append {past : List Status} {s next : Status} (h : IsPath past)
    (hlast : past.getLast? = some s) (hallows : s.allows next = true) :
    IsPath (past ++ [next]) := by
  have hall : ∀ past ∈ lives.flatMap List.inits, past.getLast? = some s →
      past ++ [next] ∈ lives.flatMap List.inits := by
    revert hallows
    cases s <;> cases next <;> decide
  exact isPath_iff.mpr (hall past (isPath_iff.mp h) hlast)

end Status

namespace Tracker

def statusAt (tr : Tracker) (a : Address) : Option Status :=
  (tr.at? a).map Task.status

/-- The statuses that the node at an address went through while the tracker went through
the given states. -/
def history (a : Address) (states : List Tracker) : List Status :=
  states.foldl (fun past tr => Status.note past (tr.statusAt a)) []

theorem history_concat (a : Address) (states : List Tracker) (tr : Tracker) :
    history a (states ++ [tr]) = Status.note (history a states) (tr.statusAt a) := by
  unfold history
  rw [List.foldl_append]
  rfl

variable {tr : Tracker} {a : Address} {s : TaskState} {kids : List TaskState}

theorem Holds.statusAt (h : tr.Holds a s kids) : tr.statusAt a = some s.status := by
  obtain ⟨t, ht, rfl, -⟩ := h
  unfold Tracker.statusAt
  rw [ht]
  rfl

theorem statusAt_of_told_none (h : tr.told a = none) : tr.statusAt a = none := by
  unfold statusAt
  rw [told_eq_none.mp h]
  rfl

end Tracker

/-! ## What a node has lived through -/

/-- The statuses that a node went through, and what it keeps of them. -/
structure TaskState.Lived (past : List Status) (s : TaskState) (kids : List TaskState) :
    Prop where
  path : Status.IsPath past
  now : past.getLast? = some s.status
  started : s.startedAt.isSome = true ↔ .running ∈ past
  completed : s.completedAt.isSome = s.status.isFinal
  full : s.status = .completed → kids = [] → s.percentage = 100

namespace TaskState

variable {past : List Status} {s s' : TaskState} {kids kids' : List TaskState}

theorem lived_fresh (name : String) (weight : Float) : Lived [.created] (.fresh name weight) [] := by
  refine ⟨⟨_, List.mem_cons_self, by decide⟩, rfl, ?_, rfl, fun h => ?_⟩
  · simp [TaskState.fresh]
  · cases h

/-- A status that stays is not noted again. -/
theorem Lived.note_self (h : Lived past s kids) : Status.note past (some s.status) = past :=
  if_pos h.now

theorem Lived.reports (h : Lived past s kids) (hopen : s.status.isFinal = false)
    (hreports : s.Reports s') : Lived past s' kids := by
  refine ⟨h.path, ?_, ?_, ?_, fun hcompleted => ?_⟩
  · rw [hreports.status_eq, h.now]
  · rw [← h.started, hreports]
  · rw [hreports.status_eq, ← h.completed, hreports]
  · rw [hreports.status_eq] at hcompleted
    rw [hcompleted] at hopen
    cases hopen

theorem Lived.passed (h : Lived past s kids) {next : Status} (message : Option String)
    (hallows : s.status.allows next = true) :
    Lived (past ++ [next]) (s.passed next message kids.isEmpty) kids := by
  have hcompleted : s.completedAt = none := by
    rw [← Option.isNone_iff_eq_none, ← Option.not_isSome, h.completed,
      Status.not_final_of_allows hallows]
    rfl
  refine ⟨h.path.append h.now hallows, by simp, ?_, ?_, fun hnext hleaf => ?_⟩
  · rw [List.mem_append, ← h.started, List.mem_singleton]
    by_cases hrunning : next = .running
    · subst hrunning
      simp [TaskState.passed, TaskState.passedAt]
    · unfold TaskState.passed TaskState.passedAt
      rw [if_neg hrunning]
      split <;> simp [Ne.symm hrunning]
  · unfold TaskState.passed TaskState.passedAt
    revert hallows
    cases next <;> cases s.status <;> cases kids.isEmpty <;>
      simp [Status.allows, Status.isFinal, hcompleted]
  · rw [passed_status] at hnext
    subst hnext hleaf
    simp [TaskState.passed, TaskState.passedAt]

/-- One step later a node has lived through one status more, or through the same. -/
theorem Lived.continues (h : Lived past s kids) (hstep : s.Continues kids s' kids') :
    Lived (Status.note past (some s'.status)) s' kids' := by
  cases hstep with
  | rests hnames =>
      rw [h.note_self]
      refine ⟨h.path, h.now, h.started, h.completed, fun hcompleted hleaf => ?_⟩
      have hnone : kids = [] := by
        subst hleaf
        exact List.map_eq_nil_iff.mp hnames.symm
      exact h.full hcompleted hnone
  | evolves hstep =>
      obtain ⟨hopen, hreports | ⟨next, message, hallows, rfl⟩⟩ := hstep
      · rw [hreports.status_eq, h.note_self]
        exact h.reports hopen hreports
      · have hnew : past.getLast? ≠ some next := by
          rw [h.now]
          rintro hsame
          cases hsame
          revert hallows
          cases s.status <;> decide
        rw [passed_status, Status.note, if_neg hnew]
        exact h.passed message hallows
  | grows k hopen =>
      rw [h.note_self]
      refine ⟨h.path, h.now, h.started, h.completed, fun _ hleaf => ?_⟩
      simp at hleaf

end TaskState

namespace Tracker

variable {tr : Tracker} {a : Address} {s : TaskState} {kids : List TaskState}

/-- After any calls every node has lived through what the course of the tree shows of it. -/
theorem lived_after (name : String) (clock : Nat → Time) (calls : List (Address × TaskCall))
    (a : Address) :
    ((new name clock).after calls).told a = none
      ∧ history a ((new name clock).course calls) = []
    ∨ ∃ s kids, ((new name clock).after calls).Holds a s kids
        ∧ s.Lived (history a ((new name clock).course calls)) kids := by
  induction calls using List.reverseRecOn with
  | nil =>
      cases a with
      | nil => exact Or.inr ⟨_, _, ⟨_, rfl, rfl, rfl⟩, TaskState.lived_fresh name 1⟩
      | cons i a =>
          have hnone : (new name clock).told (i :: a) = none := told_eq_none.mpr rfl
          exact Or.inl ⟨hnone, rfl⟩
  | append_singleton calls x ih =>
      have hmove := attempt_moves ((new name clock).after calls) x.1 x.2.op
      rw [course_concat, history_concat, after_concat]
      rcases ih with ⟨hnone, hpast⟩ | ⟨s, kids, hholds, hlived⟩
      · rw [hpast]
        rcases told_none_continues hnone hmove with hnone' | ⟨name', weight, hholds'⟩
        · rw [statusAt_of_told_none hnone']
          exact Or.inl ⟨hnone', rfl⟩
        · rw [hholds'.statusAt]
          exact Or.inr ⟨_, _, hholds', TaskState.lived_fresh name' weight⟩
      · obtain ⟨s', kids', hholds', hstep⟩ := hholds.continues hmove
        rw [hholds'.statusAt]
        exact Or.inr ⟨s', kids', hholds', hlived.continues hstep⟩

/-! ## After the end -/

/-- From the first tracker to the second nothing was announced of the node at an address. -/
def Silent (a : Address) (tr tr' : Tracker) : Prop :=
  ∃ news, tr'.log = tr.log ++ news ∧ ∀ e ∈ news, e.task ≠ a

theorem Silent.refl (a : Address) (tr : Tracker) : Silent a tr tr :=
  ⟨[], by simp, nofun⟩

theorem Silent.trans {tr₁ tr₂ : Tracker} (h : Silent a tr tr₁) (h' : Silent a tr₁ tr₂) :
    Silent a tr tr₂ := by
  obtain ⟨news, hlog, hnews⟩ := h
  obtain ⟨news', hlog', hnews'⟩ := h'
  refine ⟨news ++ news', by rw [hlog', hlog, List.append_assoc], fun e he => ?_⟩
  rcases List.mem_append.mp he with he | he
  · exact hnews e he
  · exact hnews' e he

/-- A node that has ended is not announced by whatever is attempted. -/
theorem Holds.silent (h : tr.Holds a s kids) (hfinal : s.status.isFinal = true) (b : Address)
    (op : TaskOp) : Silent a tr (tr.attempt b op) := by
  rcases tr.attempt_cases b op with hsame | ⟨s₁, cs, t, changes, hnode, hstep, hput⟩
  · rw [hsame]
    exact .refl a tr
  · rw [hput]
    refine ⟨changes.map (⟨b, ·⟩), rfl, fun e he => ?_⟩
    obtain ⟨change, hchange, rfl⟩ := List.mem_map.mp he
    rintro rfl
    have hended : s₁.status.isFinal = true := by
      rw [← (h.unique (holds_of_at? hnode)).1] at hfinal
      exact hfinal
    cases hstep with
    | heeded => cases hchange
    | progressed _ hopen _ => exact absurd hended (by simp [hopen])
    | said _ hopen => exact absurd hended (by simp [hopen])
    | passed _ _ _ hallows =>
        exact absurd hended (by simp [Status.not_final_of_allows hallows])
    | grew _ _ hopen => exact absurd hended (by simp [hopen])

/-- A move leaves the record of a node that has ended as it is. -/
theorem Holds.recorded_of_final {tr' : Tracker} (h : tr.Holds a s kids)
    (hfinal : s.status.isFinal = true) (hmove : tr.Moves tr') :
    tr'.recorded a = tr.recorded a := by
  cases hmove with
  | rests hsame => exact congrFun hsame a
  | evolves hnode hstep hwrites =>
      refine hwrites.elsewhere a ?_
      rintro rfl
      obtain ⟨rfl, rfl⟩ := h.unique hnode
      exact absurd hfinal (by simp [hstep.1])
  | grows name weight hnode hopen hwrites =>
      refine hwrites.elsewhere a ?_
      rintro rfl
      -- Where a subtask is added nothing stood before.
      have hself := h.told_self
      rw [hnode.told_kid, List.getElem?_eq_none (le_refl _)] at hself
      cases hself

/-- The node keeps its record and has the same subtasks, whatever those tell. -/
structure StaysAt (a : Address) (s : TaskState) (kids : List TaskState) (tr tr' : Tracker) :
    Prop where
  record : tr'.recorded a = tr.recorded a
  children : ∃ kids', tr'.Holds a s kids' ∧ kids'.map TaskState.name = kids.map TaskState.name

theorem StaysAt.attempt {tr' : Tracker} (h : tr.StaysAt a s kids tr')
    (hfinal : s.status.isFinal = true) (b : Address) (op : TaskOp) :
    tr.StaysAt a s kids (tr'.attempt b op) := by
  obtain ⟨hrecord, kids₁, hholds, hnames⟩ := h
  have hmove := tr'.attempt_moves b op
  refine ⟨(hholds.recorded_of_final hfinal hmove).trans hrecord, ?_⟩
  obtain ⟨s', kids', hholds', hstep⟩ := hholds.continues hmove
  cases hstep with
  | rests hsame => exact ⟨kids', hholds', hsame.trans hnames⟩
  | evolves hstep => exact absurd hfinal (by simp [hstep.1])
  | grows k hopen => exact absurd hfinal (by simp [hopen])

/-- Whatever is called, a node that has ended stays and is not announced. -/
theorem Holds.stays (h : tr.Holds a s kids) (hfinal : s.status.isFinal = true)
    (later : List (Address × TaskCall)) :
    tr.StaysAt a s kids (tr.after later) ∧ Silent a tr (tr.after later) := by
  refine after_induction (P := fun tr' => tr.StaysAt a s kids tr' ∧ Silent a tr tr') later
    ⟨⟨rfl, kids, h, rfl⟩, .refl a tr⟩ ?_
  rintro tr' b op ⟨hstays, hsilent⟩
  obtain ⟨kids', hholds', -⟩ := hstays.children
  exact ⟨hstays.attempt hfinal b op, hsilent.trans (hholds'.silent hfinal b op)⟩

/-! ## Any calls -/

/-- What holds of a tree and of everything on the way after calls on its nodes. -/
structure LifeCycle (tr : Tracker) (calls : List (Address × TaskCall)) : Prop where
  /-- The statuses of a node are a way from created to an end, or a start of one. -/
  path : ∀ a, Status.IsPath (history a (tr.course calls))
  now : ∀ a t, (tr.after calls).at? a = some t →
    (history a (tr.course calls)).getLast? = some t.status
  /-- A node has the time of its start if it has been running, and that of its end if it has
  ended. -/
  started : ∀ a t, (tr.after calls).at? a = some t →
    (t.state.startedAt.isSome = true ↔ .running ∈ history a (tr.course calls))
  completed : ∀ a t, (tr.after calls).at? a = some t →
    (t.state.completedAt.isSome = true ↔ t.status.isFinal = true)
  full : ∀ a t, (tr.after calls).at? a = some t → t.status = .completed → t.isLeaf = true →
    t.state.percentage = 100
  /-- A node that has ended keeps all that is recorded of it, its times included, and its
  subtasks, and nothing is announced of it any more. -/
  final : ∀ a t, (tr.after calls).at? a = some t → t.status.isFinal = true → ∀ later,
    ∃ t', ((tr.after calls).after later).at? a = some t'
      ∧ t'.state.recorded = t.state.recorded
      ∧ t'.children.map Task.name = t.children.map Task.name
      ∧ Silent a (tr.after calls) ((tr.after calls).after later)
  /-- A call that fails changes nothing, settling apart. -/
  refused : ∀ a (c : TaskCall) e, (∀ outcome, c ≠ .settle outcome) →
    ((c.made a).on (tr.after calls)).1 = .error e →
    ((c.made a).on (tr.after calls)).2 = tr.after calls
  /-- Settling answers the outcome that it was given, and changes nothing either if the task
  cannot end so. -/
  settled : ∀ a outcome,
    (((TaskCall.settle outcome).made a).on (tr.after calls)).1 = outcome
    ∧ ∀ e, (tr.after calls).perform a (Tracked.ending outcome) = .error e →
        (((TaskCall.settle outcome).made a).on (tr.after calls)).2 = tr.after calls

/-- A call that is answered with a fault of its own was refused. -/
theorem refused_of_error {c : TaskCall} {a : Address} {e : Fault}
    (hc : ∀ outcome, c ≠ .settle outcome) (h : ((c.made a).on tr).1 = .error e) :
    ∃ fault, tr.perform a c.op = .error fault := by
  rw [TaskCall.on_made] at h
  cases hperform : tr.perform a c.op with
  | error fault => exact ⟨fault, rfl⟩
  | ok tr' =>
      rw [hperform] at h
      cases c with
      | settle outcome => exact absurd rfl (hc outcome)
      | _ => cases h

theorem unchanged_of_refused {c : TaskCall} {a : Address} {fault : TaskFault}
    (h : tr.perform a c.op = .error fault) : ((c.made a).on tr).2 = tr := by
  rw [TaskCall.on_made]
  exact attempt_of_error h

/-- Whatever is called on the nodes of a fresh tree, and whatever the clock shows, every node
lives its life. -/
theorem lifeCycle (name : String) (clock : Nat → Time) (calls : List (Address × TaskCall)) :
    (new name clock).LifeCycle calls := by
  have hlived : ∀ a t, ((new name clock).after calls).at? a = some t →
      t.state.told.Lived (history a ((new name clock).course calls))
        (t.children.map (·.state.told)) := by
    intro a t hnode
    rcases lived_after name clock calls a with ⟨hnone, -⟩ | ⟨s, kids, hholds, hlived⟩
    · rw [told_eq_none.mp hnone] at hnode
      cases hnode
    · obtain ⟨hs, hkids⟩ := hholds.unique (holds_of_at? hnode)
      rw [hs, hkids]
      exact hlived
  refine ⟨?path, fun a t hnode => (hlived a t hnode).now, ?started, ?completed, ?full, ?final,
    ?refused, ?settled⟩
  case path =>
    intro a
    rcases lived_after name clock calls a with ⟨-, hpast⟩ | ⟨s, kids, -, hlived⟩
    · rw [hpast]
      exact ⟨_, List.mem_cons_self, List.nil_prefix⟩
    · exact hlived.path
  case started =>
    intro a t hnode
    rw [← (hlived a t hnode).started, TaskState.told_startedAt]
  case completed =>
    intro a t hnode
    rw [← TaskState.told_completedAt, (hlived a t hnode).completed]
    rfl
  case full =>
    intro a t hnode hcompleted hleaf
    have hnone : t.children.map (·.state.told) = [] := by
      rw [List.map_eq_nil_iff]
      simpa [Task.isLeaf] using hleaf
    exact (hlived a t hnode).full hcompleted hnone
  case final =>
    intro a t hnode hfinal later
    have hholds := holds_of_at? hnode
    obtain ⟨⟨hrecord, kids', ⟨t', hnode', -, rfl⟩, hnames⟩, hsilent⟩ := hholds.stays hfinal later
    rw [recorded_of_at? hnode, recorded_of_at? hnode'] at hrecord
    rw [List.map_map, List.map_map] at hnames
    exact ⟨t', hnode', Option.some.inj hrecord, hnames, hsilent⟩
  case refused =>
    intro a c e hc herror
    obtain ⟨fault, hrefused⟩ := refused_of_error hc herror
    exact unchanged_of_refused hrefused
  case settled =>
    intro a outcome
    exact ⟨rfl, fun e hrefused => unchanged_of_refused (c := .settle outcome) hrefused⟩

/-- A fresh task that is settled as cancelled is cancelled, and the settling answers that
fault: it fails and changes the task all the same. -/
theorem settling_fails_and_changes :
    ¬ ∀ e, (((TaskCall.settle (.error .cancelled)).made []).on (new "build")).1 = .error e →
      (((TaskCall.settle (.error .cancelled)).made []).on (new "build")).2 = new "build" := by
  intro hall
  have hsame := hall .cancelled rfl
  have hstatus := congrArg (fun tr => tr.statusAt []) hsame
  revert hstatus
  decide

end Tracker

end Reconcile
