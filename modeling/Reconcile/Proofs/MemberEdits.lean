import Reconcile.Proofs.Classification
import Reconcile.Script.Plan

/-!
# Editing members by name

A list of named members is edited member by member: one is removed by its name, one is
added under a name that is free, or one takes the place of the member of its name.  An
edit that does not find it so does not run.

Where no name is used twice, an edit concerns what stands under its target and nothing
else, so that edits of distinct targets neither enable nor disturb one another
(`MemberEdit.run_of_ready`).  Two ways to make one list like another are built from
that: members that are dropped before they are created anew take two rounds of such
edits (`MemberEdit.run_rebuilding`), members that are altered in place take one
(`MemberEdit.run_amending`).
-/

namespace Reconcile

/-- One step on a list of named members. -/
inductive MemberEdit (α : Type) where
  | remove (name : String)
  | add (x : α)
  /-- Puts a member in the place of the one of its name. -/
  | replace (x : α)

namespace MemberEdit

variable {α : Type}

/-! ## Running edits -/

section Running

variable (nameOf : α → String)

def target : MemberEdit α → String
  | .remove name => name
  | .add x => nameOf x
  | .replace x => nameOf x

/-- What the edit puts under its target. -/
def left : MemberEdit α → Option α
  | .remove _ => none
  | .add x => some x
  | .replace x => some x

/-- Whether there has to be a member under the target; otherwise there must be none. -/
def needsMember : MemberEdit α → Bool
  | .remove _ => true
  | .add _ => false
  | .replace _ => true

/-- A removal and a replacement find a member of the name, an addition finds none. -/
def Ready (members : List α) (e : MemberEdit α) : Prop :=
  e.target nameOf ∈ members.map nameOf ↔ e.needsMember = true

instance (members : List α) (e : MemberEdit α) : Decidable (e.Ready nameOf members) :=
  inferInstanceAs (Decidable (_ ↔ _))

def onto (members : List α) : MemberEdit α → List α
  | .remove name => members.filter (nameOf · != name)
  | .add x => members ++ [x]
  | .replace x => members.map fun y => if nameOf y = nameOf x then x else y

/-- The members once an edit has run, if it finds what it needs. -/
def run? (members : List α) (e : MemberEdit α) : Option (List α) :=
  if e.Ready nameOf members then some (e.onto nameOf members) else none

end Running

variable {nameOf : α → String} {members : List α} {e : MemberEdit α} {z : α}

theorem name_of_left (h : e.left = some z) : nameOf z = e.target nameOf := by
  cases e <;> cases h <;> rfl

theorem nodup_onto (hm : (members.map nameOf).Nodup) (h : e.Ready nameOf members) :
    ((e.onto nameOf members).map nameOf).Nodup := by
  cases e with
  | remove name => exact hm.sublist (List.filter_sublist.map nameOf)
  | add x =>
      have hfree : nameOf x ∉ members.map nameOf := fun hx => Bool.noConfusion (h.mp hx)
      rw [onto, List.map_append, List.nodup_append]
      refine ⟨hm, List.nodup_singleton _, fun name hname name' hname' => ?_⟩
      rw [List.mem_singleton.mp hname']
      exact fun hsame => hfree (hsame ▸ hname)
  | replace x =>
      have hnames : (nameOf ∘ fun y => if nameOf y = nameOf x then x else y) = nameOf := by
        funext y
        rw [Function.comp_apply]
        split
        · next hy => exact hy.symm
        · rfl
      rw [onto, List.map_map, hnames]
      exact hm

/-- Away from its target an edit leaves things as they are. -/
theorem mem_onto (h : e.Ready nameOf members) :
    z ∈ e.onto nameOf members
      ↔ e.left = some z ∨ z ∈ members ∧ nameOf z ≠ e.target nameOf := by
  cases e with
  | remove name => simp [onto, left, target]
  | add x =>
      have hfree : ∀ y ∈ members, nameOf y ≠ nameOf x := by
        intro y hy hsame
        exact Bool.noConfusion (h.mp (List.mem_map.mpr ⟨y, hy, hsame⟩))
      simp only [onto, left, target, List.mem_append, List.mem_singleton, Option.some.injEq]
      constructor
      · rintro (hz | rfl)
        · exact Or.inr ⟨hz, hfree z hz⟩
        · exact Or.inl rfl
      · rintro (rfl | ⟨hz, -⟩)
        · exact Or.inr rfl
        · exact Or.inl hz
  | replace x =>
      obtain ⟨y, hy, hname⟩ := List.mem_map.mp (h.mpr rfl)
      simp only [onto, left, target, List.mem_map, Option.some.injEq]
      constructor
      · rintro ⟨w, hw, rfl⟩
        split
        · exact Or.inl rfl
        · next hother => exact Or.inr ⟨hw, hother⟩
      · rintro (rfl | ⟨hz, hother⟩)
        · exact ⟨y, hy, if_pos hname⟩
        · exact ⟨z, hz, if_neg hother⟩

theorem mem_names_onto (h : e.Ready nameOf members) {name : String}
    (hother : name ≠ e.target nameOf) :
    name ∈ (e.onto nameOf members).map nameOf ↔ name ∈ members.map nameOf := by
  rw [List.mem_map, List.mem_map]
  constructor
  · rintro ⟨z, hz, rfl⟩
    rcases (mem_onto h).mp hz with hleft | ⟨hz, -⟩
    · exact absurd (name_of_left hleft) hother
    · exact ⟨z, hz, rfl⟩
  · rintro ⟨z, hz, rfl⟩
    exact ⟨z, (mem_onto h).mpr (Or.inr ⟨hz, hother⟩), rfl⟩

/-- Edits of distinct targets that find what they need in the list as it stands find it
still when their turn comes.  Afterwards there is what they put and what stood under
other names. -/
theorem run_of_ready {edits : List (MemberEdit α)} (hm : (members.map nameOf).Nodup)
    (hedits : (edits.map (target nameOf)).Nodup)
    (hready : ∀ e ∈ edits, e.Ready nameOf members) :
    ∃ after, edits.foldlM (run? nameOf) members = some after
      ∧ (after.map nameOf).Nodup
      ∧ ∀ z, z ∈ after ↔ (∃ e ∈ edits, e.left = some z)
          ∨ z ∈ members ∧ nameOf z ∉ edits.map (target nameOf) := by
  induction edits generalizing members with
  | nil => exact ⟨members, rfl, hm, by simp⟩
  | cons e rest ih =>
      obtain ⟨he, hrest⟩ := List.nodup_cons.mp hedits
      have hfirst := hready e List.mem_cons_self
      have hstill : ∀ e' ∈ rest, e'.Ready nameOf (e.onto nameOf members) := by
        intro e' he'
        have hother : e'.target nameOf ≠ e.target nameOf :=
          fun hsame => he (hsame ▸ List.mem_map_of_mem he')
        rw [Ready, mem_names_onto hfirst hother]
        exact hready e' (List.mem_cons_of_mem _ he')
      obtain ⟨after, hrun, hafter, hmem⟩ := ih (nodup_onto hm hfirst) hrest hstill
      refine ⟨after, ?runs, hafter, fun z => ?mem⟩
      case runs =>
          rw [List.foldlM_cons, run?, if_pos hfirst]
          exact hrun
      case mem =>
          rw [hmem, mem_onto hfirst, List.map_cons, List.mem_cons, not_or]
          simp only [List.exists_mem_cons_iff]
          constructor
          · rintro (hleft | ⟨hleft | ⟨hz, hother⟩, hz'⟩)
            · exact Or.inl (Or.inr hleft)
            · exact Or.inl (Or.inl hleft)
            · exact Or.inr ⟨hz, hother, hz'⟩
          · rintro ((hleft | hleft) | ⟨hz, hother, hz'⟩)
            · have hname : nameOf z = e.target nameOf := name_of_left hleft
              exact Or.inr ⟨Or.inl hleft, by rwa [hname]⟩
            · exact Or.inl hleft
            · exact Or.inr ⟨Or.inr ⟨hz, hother⟩, hz'⟩

/-! ## Making one list like another -/

/-- No edit is of a member that equals the desired one of its name. -/
def Untouched (nameOf : α → String) (equal : α → α → Bool) (desired current : List α)
    (edits : List (MemberEdit α)) : Prop :=
  ∀ x ∈ desired, ∀ y ∈ current, nameOf x = nameOf y → equal x y = true →
    ∀ e ∈ edits, e.target nameOf ≠ nameOf y

theorem Untouched.append {equal : α → α → Bool} {desired current : List α}
    {edits edits' : List (MemberEdit α)} (h : Untouched nameOf equal desired current edits)
    (h' : Untouched nameOf equal desired current edits') :
    Untouched nameOf equal desired current (edits ++ edits') := by
  intro x hx y hy hname hequal e he
  rcases List.mem_append.mp he with he | he
  · exact h x hx y hy hname hequal e he
  · exact h' x hx y hy hname hequal e he

/-- Nothing in `after` differs from `desired`, but for pairs of a desired member and one
that stands as it stood in `current`, which are `Spared`. -/
def Unchanged (nameOf : α → String) (equal : α → α → Bool) (Spared : α → α → Prop)
    (desired current after : List α) : Prop :=
  ∀ m ∈ MemberDiff.between nameOf equal desired after, m.state = .unchanged
    ∨ ∃ x ∈ desired, ∃ y ∈ current, nameOf x = nameOf y ∧ equal x y = false ∧ Spared x y
      ∧ m = ⟨nameOf x, .modified, some x, some y⟩

theorem Unchanged.of_none_spared {equal : α → α → Bool} {desired current after : List α}
    (h : Unchanged nameOf equal (fun _ _ => False) desired current after) :
    ∀ m ∈ MemberDiff.between nameOf equal desired after, m.state = .unchanged := by
  intro m hm
  rcases h m hm with hunchanged | ⟨-, -, -, -, -, -, hspared, -⟩
  · exact hunchanged
  · exact hspared.elim

/-- Two lists of the same names differ where members of one name do. -/
theorem unchanged_of_names {equal : α → α → Bool} {Spared : α → α → Prop}
    {desired current after : List α} (ha : (after.map nameOf).Nodup)
    (hall : ∀ x ∈ desired, ∃ y ∈ after, nameOf x = nameOf y
      ∧ (equal x y = true ∨ y ∈ current ∧ Spared x y))
    (honly : ∀ y ∈ after, ∃ x ∈ desired, nameOf x = nameOf y) :
    Unchanged nameOf equal Spared desired current after := by
  intro m hm
  rcases (MemberDiff.mem_between ha).mp hm with ⟨x, hx, y, hy, hname, rfl⟩
    | ⟨x, hx, hnone, -⟩ | ⟨y, hy, hnone, -⟩
  · obtain ⟨y', hy', hname', hxy⟩ := hall x hx
    obtain rfl := List.inj_on_of_nodup_map ha hy' hy (hname'.symm.trans hname)
    cases hequal : equal x y' with
    | true => exact Or.inl (by simp [DiffState.classify, hequal])
    | false =>
        obtain ⟨hcurrent, hspared⟩ := hxy.resolve_left (by simp [hequal])
        exact Or.inr ⟨x, hx, y', hcurrent, hname, hequal, hspared,
          by simp [DiffState.classify, hequal]⟩
  · obtain ⟨y, hy, hname, -⟩ := hall x hx
    exact absurd hname.symm (hnone y hy)
  · obtain ⟨x, hx, hname⟩ := honly y hy
    exact absurd hname (hnone x hx)

end MemberEdit

/-! ### Members that are dropped and created anew -/

/-- What comes of some elements of a list, listed by what it shares with them. -/
theorem map_filterMap_sublist {α β γ : Type} {f : α → Option β} {g : β → γ} {h : α → γ}
    {xs : List α} (hf : ∀ a ∈ xs, ∀ b, f a = some b → g b = h a) :
    ((xs.filterMap f).map g).Sublist (xs.map h) := by
  induction xs with
  | nil => exact List.Sublist.slnil
  | cons x xs ih =>
      have ih := ih fun a ha => hf a (List.mem_cons_of_mem _ ha)
      cases hx : f x with
      | none =>
          rw [List.filterMap_cons_none hx]
          exact ih.cons _
      | some b =>
          rw [List.filterMap_cons_some hx, List.map_cons, List.map_cons,
            hf x List.mem_cons_self b hx]
          exact ih.cons_cons _

namespace MemberDiff

variable {α : Type} {nameOf : α → String} {equal : α → α → Bool} {source target : List α}
  {x y : α}

/-- What has to go stands on the target's side and equals nothing on the source's. -/
theorem mem_dropped (hs : (source.map nameOf).Nodup) (ht : (target.map nameOf).Nodup) :
    y ∈ (between nameOf equal source target).filterMap dropped?
      ↔ y ∈ target ∧ ∀ x ∈ source, nameOf x = nameOf y → equal x y = false := by
  rw [List.mem_filterMap]
  constructor
  · rintro ⟨m, hm, hdropped⟩
    rcases (mem_between ht).mp hm with ⟨x, hx, z, hz, hname, rfl⟩ | ⟨x, -, -, rfl⟩
      | ⟨z, hz, hnone, rfl⟩
    · cases hequal : equal x z with
      | true => simp [dropped?, DiffState.classify, hequal] at hdropped
      | false =>
          obtain rfl : z = y := by
            simpa [dropped?, DiffState.classify, hequal] using hdropped
          refine ⟨hz, fun x' hx' hname' => ?_⟩
          rwa [List.inj_on_of_nodup_map hs hx' hx (hname'.trans hname.symm)]
    · cases hdropped
    · cases hdropped
      exact ⟨hz, fun x hx hname => absurd hname (hnone x hx)⟩
  · rintro ⟨hy, hdiffers⟩
    by_cases hfound : ∃ x ∈ source, nameOf x = nameOf y
    · obtain ⟨x, hx, hname⟩ := hfound
      exact ⟨_, (mem_between ht).mpr (Or.inl ⟨x, hx, y, hy, hname, rfl⟩),
        by simp [dropped?, DiffState.classify, hdiffers x hx hname]⟩
    · push Not at hfound
      exact ⟨_, (mem_between ht).mpr (Or.inr (Or.inr ⟨y, hy, hfound, rfl⟩)), rfl⟩

/-- What has to come stands on the source's side and equals nothing on the target's. -/
theorem mem_created (ht : (target.map nameOf).Nodup) :
    x ∈ (between nameOf equal source target).filterMap created?
      ↔ x ∈ source ∧ ∀ y ∈ target, nameOf x = nameOf y → equal x y = false := by
  rw [List.mem_filterMap]
  constructor
  · rintro ⟨m, hm, hcreated⟩
    rcases (mem_between ht).mp hm with ⟨z, hz, y, hy, hname, rfl⟩ | ⟨z, hz, hnone, rfl⟩
      | ⟨y, -, -, rfl⟩
    · cases hequal : equal z y with
      | true => simp [created?, DiffState.classify, hequal] at hcreated
      | false =>
          obtain rfl : z = x := by
            simpa [created?, DiffState.classify, hequal] using hcreated
          refine ⟨hz, fun y' hy' hname' => ?_⟩
          rwa [List.inj_on_of_nodup_map ht hy' hy (hname'.symm.trans hname)]
    · cases hcreated
      exact ⟨hz, fun y hy hname => absurd hname.symm (hnone y hy)⟩
    · cases hcreated
  · rintro ⟨hx, hdiffers⟩
    by_cases hfound : ∃ y ∈ target, nameOf x = nameOf y
    · obtain ⟨y, hy, hname⟩ := hfound
      exact ⟨_, (mem_between ht).mpr (Or.inl ⟨x, hx, y, hy, hname, rfl⟩),
        by simp [created?, DiffState.classify, hdiffers y hy hname]⟩
    · push Not at hfound
      exact ⟨_, (mem_between ht).mpr
        (Or.inr (Or.inl ⟨x, hx, fun y hy => (hfound y hy).symm, rfl⟩)), rfl⟩

/-- What is made of the differences under their names is under distinct names. -/
theorem nodup_filterMap_between {β : Type} {f : MemberDiff α → Option β} {g : β → String}
    (hs : (source.map nameOf).Nodup) (ht : (target.map nameOf).Nodup)
    (hf : ∀ m b, f m = some b →
      (∃ x, m.source = some x ∧ g b = nameOf x) ∨ ∃ y, m.target = some y ∧ g b = nameOf y) :
    (((between nameOf equal source target).filterMap f).map g).Nodup := by
  have hlists := between_lists equal hs ht
  refine hlists.once.sublist (map_filterMap_sublist fun m hm b hb => ?_)
  rcases hf m b hb with ⟨x, hx, hname⟩ | ⟨y, hy, hname⟩
  · exact hname.trans ((hlists.source m hm x).mp hx).2
  · exact hname.trans ((hlists.target m hm y).mp hy).2

theorem target_of_dropped {m : MemberDiff α} (h : m.dropped? = some y) :
    m.target = some y := by
  unfold dropped? at h
  split at h
  · exact h
  · exact h
  · cases h
  · cases h

theorem source_of_created {m : MemberDiff α} (h : m.created? = some x) :
    m.source = some x := by
  unfold created? at h
  split at h
  · exact h
  · exact h
  · cases h
  · cases h

end MemberDiff

namespace MemberEdit

variable {α : Type} {nameOf : α → String} {equal : α → α → Bool} {desired current : List α}

/-- The target's members that differ go by their names. -/
def drops (nameOf : α → String) (ms : List (MemberDiff α)) : List (MemberEdit α) :=
  (ms.filterMap MemberDiff.dropped?).map fun y => .remove (nameOf y)

/-- The source's members that differ come as they are. -/
def creations (ms : List (MemberDiff α)) : List (MemberEdit α) :=
  (ms.filterMap MemberDiff.created?).map .add

section Rebuilding

variable (hd : (desired.map nameOf).Nodup) (hc : (current.map nameOf).Nodup)
include hd hc

/-- Every drop finds its member, and what stays is what equals the desired member of its
name. -/
theorem run_drops (equal : α → α → Bool) :
    ∃ rest, (drops nameOf (MemberDiff.between nameOf equal desired current)).foldlM
        (run? nameOf) current = some rest
      ∧ (rest.map nameOf).Nodup
      ∧ ∀ y, y ∈ rest ↔
          y ∈ current ∧ ∃ x ∈ desired, nameOf x = nameOf y ∧ equal x y = true := by
  let dropped := (MemberDiff.between nameOf equal desired current).filterMap
    MemberDiff.dropped?
  have hdropped : ∀ y, y ∈ dropped ↔ _ := fun y => MemberDiff.mem_dropped hd hc
  have htargets : (drops nameOf (MemberDiff.between nameOf equal desired current)).map
      (target nameOf) = dropped.map nameOf := List.map_map
  have hnodup : (dropped.map nameOf).Nodup :=
    MemberDiff.nodup_filterMap_between hd hc fun m y hy =>
      Or.inr ⟨y, MemberDiff.target_of_dropped hy, rfl⟩
  have hready : ∀ e ∈ drops nameOf (MemberDiff.between nameOf equal desired current),
      e.Ready nameOf current := by
    intro e he
    obtain ⟨y, hy, rfl⟩ := List.mem_map.mp he
    exact iff_of_true (List.mem_map_of_mem ((hdropped y).mp hy).1) rfl
  obtain ⟨rest, hrun, hrest, hmem⟩ := run_of_ready hc (htargets ▸ hnodup) hready
  refine ⟨rest, hrun, hrest, fun y => ?_⟩
  rw [hmem, htargets]
  constructor
  · rintro (⟨e, he, hleft⟩ | ⟨hy, hstays⟩)
    · obtain ⟨z, -, rfl⟩ := List.mem_map.mp he
      cases hleft
    · refine ⟨hy, ?_⟩
      by_contra hnone
      push Not at hnone
      have hdrop : y ∈ dropped := (hdropped y).mpr
        ⟨hy, fun x hx hname => by simpa using hnone x hx hname⟩
      exact hstays (List.mem_map_of_mem hdrop)
  · rintro ⟨hy, x, hx, hname, hequal⟩
    refine Or.inr ⟨hy, fun hdrop => ?_⟩
    obtain ⟨z, hz, hsame⟩ := List.mem_map.mp hdrop
    obtain ⟨hzcurrent, hdiffers⟩ := (hdropped z).mp hz
    obtain rfl := List.inj_on_of_nodup_map hc hzcurrent hy hsame
    simp [hdiffers x hx hname] at hequal

theorem untouched_drops : Untouched nameOf equal desired current
    (drops nameOf (MemberDiff.between nameOf equal desired current)) := by
  intro x hx y hy hname hequal e he hsame
  obtain ⟨z, hz, rfl⟩ := List.mem_map.mp he
  obtain ⟨hzcurrent, hdiffers⟩ := (MemberDiff.mem_dropped hd hc).mp hz
  obtain rfl := List.inj_on_of_nodup_map hc hzcurrent hy hsame
  simp [hdiffers x hx hname] at hequal

theorem untouched_creations : Untouched nameOf equal desired current
    (creations (MemberDiff.between nameOf equal desired current)) := by
  intro x hx y hy hname hequal e he hsame
  obtain ⟨z, hz, rfl⟩ := List.mem_map.mp he
  obtain ⟨hzdesired, hdiffers⟩ := (MemberDiff.mem_created hc).mp hz
  obtain rfl := List.inj_on_of_nodup_map hd hzdesired hx (hsame.trans hname.symm)
  simp [hdiffers y hy hname] at hequal

/-- Every creation finds its name free in a list that shares no name with what comes, and
nothing is lost. -/
theorem run_creations {rest : List α} (hrest : (rest.map nameOf).Nodup)
    (hapart : ∀ x ∈ (MemberDiff.between nameOf equal desired current).filterMap
      MemberDiff.created?, ∀ y ∈ rest, nameOf y ≠ nameOf x) :
    ∃ after, (creations (MemberDiff.between nameOf equal desired current)).foldlM
        (run? nameOf) rest = some after
      ∧ (after.map nameOf).Nodup
      ∧ ∀ z, z ∈ after ↔ z ∈ (MemberDiff.between nameOf equal desired current).filterMap
          MemberDiff.created? ∨ z ∈ rest := by
  let created := (MemberDiff.between nameOf equal desired current).filterMap
    MemberDiff.created?
  have htargets : (creations (MemberDiff.between nameOf equal desired current)).map
      (target nameOf) = created.map nameOf := List.map_map
  have hnodup : (created.map nameOf).Nodup :=
    MemberDiff.nodup_filterMap_between hd hc fun m x hx =>
      Or.inl ⟨x, MemberDiff.source_of_created hx, rfl⟩
  have hready : ∀ e ∈ creations (MemberDiff.between nameOf equal desired current),
      e.Ready nameOf rest := by
    intro e he
    obtain ⟨x, hx, rfl⟩ := List.mem_map.mp he
    refine iff_of_false (fun htaken => ?_) Bool.false_ne_true
    obtain ⟨y, hy, hname⟩ := List.mem_map.mp htaken
    exact hapart x hx y hy hname
  obtain ⟨after, hrun, hafter, hmem⟩ := run_of_ready hrest (htargets ▸ hnodup) hready
  refine ⟨after, hrun, hafter, fun z => ?_⟩
  rw [hmem, htargets]
  constructor
  · rintro (⟨e, he, hleft⟩ | ⟨hz, -⟩)
    · obtain ⟨x, hx, rfl⟩ := List.mem_map.mp he
      cases hleft
      exact Or.inl hx
    · exact Or.inr hz
  · rintro (hz | hz)
    · exact Or.inl ⟨.add z, List.mem_map_of_mem hz, rfl⟩
    · refine Or.inr ⟨hz, fun htaken => ?_⟩
      obtain ⟨x, hx, hsame⟩ := List.mem_map.mp htaken
      exact hapart x hx z hz hsame.symm

/-- Members that are dropped if they differ and then created as they are desired: every
drop finds its member, every creation finds the name free, and nothing differs. -/
theorem run_rebuilding (hself : ∀ x, equal x x = true) :
    let ms := MemberDiff.between nameOf equal desired current
    let edits := drops nameOf ms ++ creations ms
    ∃ after, edits.foldlM (run? nameOf) current = some after
      ∧ Untouched nameOf equal desired current edits
      ∧ Unchanged nameOf equal (fun _ _ => False) desired current after := by
  intro ms edits
  have hcreated : ∀ x, x ∈ ms.filterMap MemberDiff.created? ↔ _ :=
    fun x => MemberDiff.mem_created hc
  obtain ⟨rest, hdrops, hrest, hstays⟩ := run_drops hd hc equal
  -- A member that comes equals nothing in `current`, so what had its name is gone.
  have hapart : ∀ x ∈ ms.filterMap MemberDiff.created?, ∀ y ∈ rest,
      nameOf y ≠ nameOf x := by
    intro x hx y hy hname
    obtain ⟨hxdesired, hdiffers⟩ := (hcreated x).mp hx
    obtain ⟨hycurrent, x', hx', hname', hequal⟩ := (hstays y).mp hy
    obtain rfl := List.inj_on_of_nodup_map hd hx' hxdesired (hname'.trans hname)
    simp [hdiffers y hycurrent hname'] at hequal
  obtain ⟨after, hcreations, hafter, hmem⟩ := run_creations hd hc hrest hapart
  refine ⟨after, ?runs, (untouched_drops hd hc).append (untouched_creations hd hc),
    unchanged_of_names hafter ?all ?only⟩
  case runs =>
      rw [List.foldlM_append, hdrops]
      exact hcreations
  case all =>
      intro x hx
      by_cases hcomes : ∃ y ∈ current, nameOf x = nameOf y ∧ equal x y = true
      · obtain ⟨y, hy, hname, hequal⟩ := hcomes
        have hstay : y ∈ rest := (hstays y).mpr ⟨hy, x, hx, hname, hequal⟩
        exact ⟨y, (hmem y).mpr (Or.inr hstay), hname, Or.inl hequal⟩
      · push Not at hcomes
        have hxcreated := (hcreated x).mpr
          ⟨hx, fun y hy hname => by simpa using hcomes y hy hname⟩
        exact ⟨x, (hmem x).mpr (Or.inl hxcreated), rfl, Or.inl (hself x)⟩
  case only =>
      intro z hz
      rcases (hmem z).mp hz with hz | hz
      · exact ⟨z, ((hcreated z).mp hz).1, rfl⟩
      · obtain ⟨-, x, hx, hname, -⟩ := (hstays z).mp hz
        exact ⟨x, hx, hname⟩

end Rebuilding

/-! ### Members that are altered in place -/

/-- The edit of a difference whose members are altered in place; of the alterations only
those are run that are `written`. -/
def amendment? (nameOf : α → String) (written : α → α → Bool) (m : MemberDiff α) :
    Option (MemberEdit α) :=
  match m.state, m.source, m.target with
  | .deleted, _, some y => some (.remove (nameOf y))
  | .added, some x, _ => some (.add x)
  | .modified, some x, some y => if written x y then some (.replace x) else none
  | _, _, _ => none

def amending (nameOf : α → String) (written : α → α → Bool) (ms : List (MemberDiff α)) :
    List (MemberEdit α) :=
  ms.filterMap (amendment? nameOf written)

section Amending

variable {written : α → α → Bool}

theorem mem_amending {e : MemberEdit α} (hc : (current.map nameOf).Nodup) :
    e ∈ amending nameOf written (MemberDiff.between nameOf equal desired current) ↔
      (∃ x ∈ desired, ∃ y ∈ current, nameOf x = nameOf y ∧ equal x y = false
        ∧ written x y = true ∧ e = .replace x)
      ∨ (∃ x ∈ desired, (∀ y ∈ current, nameOf y ≠ nameOf x) ∧ e = .add x)
      ∨ ∃ y ∈ current, (∀ x ∈ desired, nameOf x ≠ nameOf y) ∧ e = .remove (nameOf y) := by
  rw [amending, List.mem_filterMap]
  constructor
  · rintro ⟨m, hm, he⟩
    rcases (MemberDiff.mem_between hc).mp hm with ⟨x, hx, y, hy, hname, rfl⟩
      | ⟨x, hx, hnone, rfl⟩ | ⟨y, hy, hnone, rfl⟩
    · cases hequal : equal x y with
      | true => simp [amendment?, DiffState.classify, hequal] at he
      | false =>
          simp only [amendment?, DiffState.classify, hequal, Bool.false_eq_true, if_false,
            Option.ite_none_right_eq_some, Option.some.injEq] at he
          exact Or.inl ⟨x, hx, y, hy, hname, hequal, he.1, he.2.symm⟩
    · cases he
      exact Or.inr (Or.inl ⟨x, hx, hnone, rfl⟩)
    · cases he
      exact Or.inr (Or.inr ⟨y, hy, hnone, rfl⟩)
  · rintro (⟨x, hx, y, hy, hname, hequal, hwritten, rfl⟩ | ⟨x, hx, hnone, rfl⟩
      | ⟨y, hy, hnone, rfl⟩)
    · exact ⟨_, (MemberDiff.mem_between hc).mpr (Or.inl ⟨x, hx, y, hy, hname, rfl⟩),
        by simp [amendment?, DiffState.classify, hequal, hwritten]⟩
    · exact ⟨_, (MemberDiff.mem_between hc).mpr (Or.inr (Or.inl ⟨x, hx, hnone, rfl⟩)), rfl⟩
    · exact ⟨_, (MemberDiff.mem_between hc).mpr (Or.inr (Or.inr ⟨y, hy, hnone, rfl⟩)), rfl⟩

/-- An amendment is of a member of either side. -/
theorem target_of_amendment {m : MemberDiff α} {e : MemberEdit α}
    (h : amendment? nameOf written m = some e) :
    (∃ x, m.source = some x ∧ e.target nameOf = nameOf x)
      ∨ ∃ y, m.target = some y ∧ e.target nameOf = nameOf y := by
  unfold amendment? at h
  split at h
  · next y _ htarget =>
      cases h
      exact Or.inr ⟨y, htarget, rfl⟩
  · next x _ hsource =>
      cases h
      exact Or.inl ⟨x, hsource, rfl⟩
  · next x y _ hsource _ =>
      obtain ⟨-, he⟩ := Option.ite_none_right_eq_some.mp h
      cases he
      exact Or.inl ⟨x, hsource, rfl⟩
  · cases h

/-- Every amendment finds what it needs in the list as it stands. -/
theorem ready_of_mem_amending (hc : (current.map nameOf).Nodup) {e : MemberEdit α}
    (he : e ∈ amending nameOf written (MemberDiff.between nameOf equal desired current)) :
    e.Ready nameOf current := by
  rcases (mem_amending hc).mp he with ⟨x, -, y, hy, hname, -, -, rfl⟩ | ⟨x, -, hnone, rfl⟩
    | ⟨y, hy, -, rfl⟩
  · exact iff_of_true (List.mem_map.mpr ⟨y, hy, hname.symm⟩) rfl
  · refine iff_of_false (fun htaken => ?_) Bool.false_ne_true
    obtain ⟨y, hy, hname⟩ := List.mem_map.mp htaken
    exact hnone y hy hname
  · exact iff_of_true (List.mem_map_of_mem hy) rfl

/-- A pair is amended only if its members differ and the alteration is written. -/
theorem differs_of_amended (hd : (desired.map nameOf).Nodup) (hc : (current.map nameOf).Nodup)
    {x y : α} (hx : x ∈ desired) (hy : y ∈ current) (hname : nameOf x = nameOf y)
    {e : MemberEdit α}
    (he : e ∈ amending nameOf written (MemberDiff.between nameOf equal desired current))
    (htarget : e.target nameOf = nameOf y) : equal x y = false ∧ written x y = true := by
  rcases (mem_amending hc).mp he with ⟨x', hx', y', hy', hname', hequal, hwritten, rfl⟩
    | ⟨x', -, hnone, rfl⟩ | ⟨y', -, hnone, rfl⟩
  · obtain rfl := List.inj_on_of_nodup_map hc hy' hy (hname'.symm.trans htarget)
    obtain rfl := List.inj_on_of_nodup_map hd hx' hx (hname'.trans hname.symm)
    exact ⟨hequal, hwritten⟩
  · exact absurd htarget.symm (hnone y hy)
  · exact absurd (hname.trans htarget.symm) (hnone x hx)

/-- Members that are altered in place: every drop and every alteration finds its member,
every addition finds the name free, and nothing differs but what is not written. -/
theorem run_amending (written : α → α → Bool) (hd : (desired.map nameOf).Nodup)
    (hc : (current.map nameOf).Nodup) (hself : ∀ x, equal x x = true) :
    let edits := amending nameOf written (MemberDiff.between nameOf equal desired current)
    ∃ after, edits.foldlM (run? nameOf) current = some after
      ∧ Untouched nameOf equal desired current edits
      ∧ Unchanged nameOf equal (fun x y => written x y = false) desired current after := by
  intro edits
  have hedits : ∀ e, e ∈ edits ↔ _ := fun e => mem_amending hc
  have hnodup : (edits.map (target nameOf)).Nodup :=
    MemberDiff.nodup_filterMap_between hd hc fun m e he => target_of_amendment he
  obtain ⟨after, hrun, hafter, hmem⟩ :=
    run_of_ready hc hnodup fun e he => ready_of_mem_amending hc he
  refine ⟨after, hrun, ?untouched, unchanged_of_names hafter ?all ?only⟩
  case untouched =>
      intro x hx y hy hname hequal e he htarget
      simp [(differs_of_amended hd hc hx hy hname he htarget).1] at hequal
  case all =>
      intro x hx
      by_cases hfound : ∃ y ∈ current, nameOf x = nameOf y
      · obtain ⟨y, hy, hname⟩ := hfound
        by_cases haltered : equal x y = false ∧ written x y = true
        · have hreplaced : .replace x ∈ edits := (hedits _).mpr
            (Or.inl ⟨x, hx, y, hy, hname, haltered.1, haltered.2, rfl⟩)
          exact ⟨x, (hmem x).mpr (Or.inl ⟨_, hreplaced, rfl⟩), rfl, Or.inl (hself x)⟩
        · have hkept : nameOf y ∉ edits.map (target nameOf) := by
            intro htaken
            obtain ⟨e, he, htarget⟩ := List.mem_map.mp htaken
            exact haltered (differs_of_amended hd hc hx hy hname he htarget)
          refine ⟨y, (hmem y).mpr (Or.inr ⟨hy, hkept⟩), hname, ?_⟩
          cases hequal : equal x y with
          | true => exact Or.inl rfl
          | false => exact Or.inr ⟨hy, by simpa [hequal] using haltered⟩
      · push Not at hfound
        have hadded : .add x ∈ edits := (hedits _).mpr
          (Or.inr (Or.inl ⟨x, hx, fun y hy => (hfound y hy).symm, rfl⟩))
        exact ⟨x, (hmem x).mpr (Or.inl ⟨_, hadded, rfl⟩), rfl, Or.inl (hself x)⟩
  case only =>
      intro z hz
      rcases (hmem z).mp hz with ⟨e, he, hleft⟩ | ⟨hz, hkept⟩
      · rcases (hedits e).mp he with ⟨x, hx, -, -, -, -, -, rfl⟩ | ⟨x, hx, -, rfl⟩
          | ⟨y, -, -, rfl⟩
        · exact ⟨x, hx, congrArg nameOf (Option.some.inj hleft)⟩
        · exact ⟨x, hx, congrArg nameOf (Option.some.inj hleft)⟩
        · cases hleft
      · by_contra hnone
        push Not at hnone
        have hremoved : .remove (nameOf z) ∈ edits := (hedits _).mpr
          (Or.inr (Or.inr ⟨z, hz, hnone, rfl⟩))
        exact hkept (List.mem_map_of_mem hremoved)

end Amending

end MemberEdit

end Reconcile
