import Reconcile.Catalog.MySql
import Reconcile.Catalog.PostgreSql
import Mathlib.Data.List.Forall2
import Mathlib.Data.List.Induction
import Mathlib.Data.List.Nodup

/-!
# Objects made of rows

A catalog answers a row for each column of an index and for each pair of columns of a foreign
key.  Rows of one name make one object, wherever they stand in the answer, and a row of which
nothing can be made keeps them all from the table.  What a row says of its object and of its
entry there is written down apart from how it is read (`Folding`).  One more row leaves the
objects of the rows before it either as they are, with a new one at their end, or with one of
them an entry longer (`Gathered.concat`), and from that follows what all rows come to
(`Steps.comes`): each name once, in the order of their first rows, with an entry for each row of
the name.  No row is lost on the way and none is taken twice (`Gathered.accounts`).
-/

namespace Reconcile

/-! ## Groups -/

section Firsts

variable {α : Type} [BEq α] [LawfulBEq α] {as : List α} {a : α}

theorem eraseDups_concat_of_mem (h : a ∈ as) : (as ++ [a]).eraseDups = as.eraseDups := by
  rw [List.eraseDups_append]
  simp [List.removeAll, h]

theorem eraseDups_concat_of_notMem (h : a ∉ as) :
    (as ++ [a]).eraseDups = as.eraseDups ++ [a] := by
  rw [List.eraseDups_append]
  simp [List.removeAll, h, List.eraseDups_cons]

end Firsts

section Groups

variable {γ : Type} {nameOf : γ → String} {name : String} {start : γ} {add : γ → γ}
  {groups : List γ}

theorem addToGroup_of_notMem (h : name ∉ groups.map nameOf) :
    addToGroup nameOf name start add groups = groups ++ [add start] := by
  induction groups with
  | nil => rfl
  | cons g gs ih =>
      rw [List.map_cons, List.mem_cons, not_or] at h
      rw [addToGroup, if_neg (Ne.symm h.1), ih h.2, List.cons_append]

/-- Where no name stands twice, adding to the first group of a name is adding to the group of
that name. -/
theorem addToGroup_of_mem (honce : (groups.map nameOf).Nodup) (h : name ∈ groups.map nameOf) :
    addToGroup nameOf name start add groups
      = groups.map fun g => if nameOf g = name then add g else g := by
  induction groups with
  | nil => cases h
  | cons g gs ih =>
      rw [List.map_cons, List.nodup_cons] at honce
      rw [addToGroup, List.map_cons]
      by_cases hname : nameOf g = name
      · have hothers : ∀ g' ∈ gs, (if nameOf g' = name then add g' else g') = g' := by
          intro g' hg'
          apply if_neg
          rintro rfl
          exact honce.1 (hname ▸ List.mem_map_of_mem hg')
        rw [if_pos hname, if_pos hname, List.map_congr_left hothers, List.map_id']
      · have hrest : name ∈ gs.map nameOf :=
          (List.mem_cons.mp h).resolve_left (Ne.symm hname)
        rw [if_neg hname, if_neg hname, ih honce.2 hrest]

end Groups

/-! ## Steps that fail -/

section Failing

variable {ε α β : Type} {x : Except ε α} {f : α → Except ε β}

theorem bind_fails (h : ∃ e, x = .error e) : ∃ e, x >>= f = .error e := by
  obtain ⟨e, rfl⟩ := h
  exact ⟨e, rfl⟩

theorem bind_fails_after (h : ∀ a, ∃ e, f a = .error e) : ∃ e, x >>= f = .error e := by
  cases x with
  | error e => exact ⟨e, rfl⟩
  | ok a => exact h a

end Failing

/-! ## What rows say -/

/-- What rows say of objects that have a name and entries. -/
structure Folding (ρ γ κ : Type) where
  rowName : ρ → String
  objectName : γ → String
  entries : γ → List κ
  /-- Apart from its entries the object is as the row says. -/
  heads : ρ → γ → Prop
  /-- The entry is as the row says. -/
  gives : ρ → κ → Prop
  /-- Nothing can be made of the row. -/
  refused : ρ → Prop

namespace Folding

variable {ρ γ κ : Type} (F : Folding ρ γ κ)

def rowsNamed (rows : List ρ) (name : String) : List ρ :=
  rows.filter fun r => F.rowName r = name

/-- An object is made of the rows of its name: the first says what it is, and each of them
gives it an entry. -/
structure Made (rows : List ρ) (o : γ) : Prop where
  first : ∃ r, (F.rowsNamed rows (F.objectName o)).head? = some r ∧ F.heads r o
  entries : List.Forall₂ F.gives (F.rowsNamed rows (F.objectName o)) (F.entries o)

/-- The objects that rows make. -/
structure Gathered (rows : List ρ) (objects : List γ) : Prop where
  distinct : (objects.map F.objectName).Nodup
  /-- The names stand in the order in which they come up. -/
  ordered : objects.map F.objectName = (rows.map F.rowName).eraseDups
  made : ∀ o ∈ objects, F.Made rows o

/-- All entries together are those of the rows, one for each. -/
def Accounts (rows : List ρ) (objects : List γ) : Prop :=
  ∃ arranged : List ρ, arranged.Perm rows
    ∧ List.Forall₂ F.gives arranged (objects.flatMap F.entries)

/-- A row starts an object and adds an entry to any. -/
structure Enters (r : ρ) (start : γ) (add : γ → γ) : Prop where
  name_start : F.objectName start = F.rowName r
  heads_start : F.heads r start
  entries_start : F.entries start = []
  name_add : ∀ o, F.objectName (add o) = F.objectName o
  heads_add : ∀ r' o, F.heads r' o → F.heads r' (add o)
  entries_add : ∃ c, F.gives r c ∧ ∀ o, F.entries (add o) = F.entries o ++ [c]

variable {F} {rows : List ρ} {r : ρ} {name : String} {o start : γ} {add : γ → γ}
  {objects : List γ}

/-! ## One more row -/

theorem rowsNamed_concat (h : F.rowName r = name) :
    F.rowsNamed (rows ++ [r]) name = F.rowsNamed rows name ++ [r] := by
  simp [rowsNamed, h]

theorem rowsNamed_concat_of_ne (h : F.rowName r ≠ name) :
    F.rowsNamed (rows ++ [r]) name = F.rowsNamed rows name := by
  simp [rowsNamed, h]

theorem Made.concat_of_ne (h : F.Made rows o) (hname : F.rowName r ≠ F.objectName o) :
    F.Made (rows ++ [r]) o := by
  constructor
  · rw [rowsNamed_concat_of_ne hname]
    exact h.first
  · rw [rowsNamed_concat_of_ne hname]
    exact h.entries

theorem Made.concat (h : F.Made rows o) (hr : F.Enters r start add)
    (hname : F.rowName r = F.objectName o) : F.Made (rows ++ [r]) (add o) := by
  obtain ⟨first, hfirst, hheads⟩ := h.first
  obtain ⟨c, hgives, hadd⟩ := hr.entries_add
  constructor
  · rw [hr.name_add, rowsNamed_concat hname]
    exact ⟨first, by rw [List.head?_append, hfirst, Option.some_or], hr.heads_add _ _ hheads⟩
  · rw [hr.name_add, rowsNamed_concat hname, hadd]
    exact List.rel_append h.entries (.cons hgives .nil)

theorem made_start (hr : F.Enters r start add) (hnew : F.rowsNamed rows (F.rowName r) = []) :
    F.Made (rows ++ [r]) (add start) := by
  have hname : F.objectName (add start) = F.rowName r := (hr.name_add start).trans hr.name_start
  have hrows : F.rowsNamed (rows ++ [r]) (F.objectName (add start)) = [r] := by
    rw [hname, rowsNamed_concat rfl, hnew, List.nil_append]
  obtain ⟨c, hgives, hadd⟩ := hr.entries_add
  constructor
  · rw [hrows]
    exact ⟨r, rfl, hr.heads_add _ _ hr.heads_start⟩
  · rw [hrows, hadd, hr.entries_start]
    exact .cons hgives .nil

theorem Gathered.mem_names (h : F.Gathered rows objects) :
    name ∈ objects.map F.objectName ↔ name ∈ rows.map F.rowName := by
  rw [h.ordered, List.mem_eraseDups]

theorem Gathered.concat_new (h : F.Gathered rows objects) (hr : F.Enters r start add)
    (hnew : F.rowName r ∉ objects.map F.objectName) :
    F.Gathered (rows ++ [r]) (objects ++ [add start]) := by
  have hname : F.objectName (add start) = F.rowName r := (hr.name_add start).trans hr.name_start
  have hrows : F.rowName r ∉ rows.map F.rowName := mt h.mem_names.mpr hnew
  constructor
  case distinct =>
    rw [List.map_append, List.map_singleton, hname]
    exact List.nodup_append.mpr ⟨h.distinct, List.nodup_singleton _, by
      rintro a ha b hb rfl
      exact hnew (List.mem_singleton.mp hb ▸ ha)⟩
  case ordered =>
    rw [List.map_append, List.map_append, List.map_singleton, List.map_singleton, hname,
      eraseDups_concat_of_notMem hrows, h.ordered]
  case made =>
    intro o ho
    rcases List.mem_append.mp ho with ho | ho
    · exact (h.made o ho).concat_of_ne fun heq => hnew (heq ▸ List.mem_map_of_mem ho)
    · obtain rfl := List.mem_singleton.mp ho
      apply made_start hr
      apply List.filter_eq_nil_iff.mpr
      intro r' hr' hname'
      rw [decide_eq_true_eq] at hname'
      exact hrows (hname' ▸ List.mem_map_of_mem hr')

theorem Gathered.concat_known (h : F.Gathered rows objects) (hr : F.Enters r start add)
    (hknown : F.rowName r ∈ objects.map F.objectName) :
    F.Gathered (rows ++ [r])
      (objects.map fun o => if F.objectName o = F.rowName r then add o else o) := by
  have hnames : (objects.map fun o => if F.objectName o = F.rowName r then add o else o).map
      F.objectName = objects.map F.objectName := by
    rw [List.map_map]
    apply List.map_congr_left
    intro o _
    by_cases hname : F.objectName o = F.rowName r
    · simp [hname, hr.name_add]
    · simp [hname]
  constructor
  case distinct => exact hnames ▸ h.distinct
  case ordered =>
    rw [hnames, h.ordered, List.map_append, List.map_singleton,
      eraseDups_concat_of_mem (h.mem_names.mp hknown)]
  case made =>
    intro o' ho'
    obtain ⟨o, ho, rfl⟩ := List.mem_map.mp ho'
    by_cases hname : F.objectName o = F.rowName r
    · rw [if_pos hname]
      exact (h.made o ho).concat hr hname.symm
    · rw [if_neg hname]
      exact (h.made o ho).concat_of_ne (Ne.symm hname)

/-- With one more row the objects of some rows become those of the longer list. -/
theorem Gathered.concat (h : F.Gathered rows objects) (hr : F.Enters r start add) :
    F.Gathered (rows ++ [r]) (addToGroup F.objectName (F.rowName r) start add objects) := by
  by_cases hknown : F.rowName r ∈ objects.map F.objectName
  · rw [addToGroup_of_mem h.distinct hknown]
    exact h.concat_known hr hknown
  · rw [addToGroup_of_notMem hknown]
    exact h.concat_new hr hknown

/-! ## All rows -/

/-- Going through rows one after another stops at a row of which nothing can be made, and adds
what any other row says to the object of its name. -/
structure Steps (F : Folding ρ γ κ)
    (step : List γ → ρ → Except CrawlFault (List γ)) : Prop where
  stops : ∀ r objects, F.refused r → ∃ cause, step objects r = .error cause
  enters : ∀ r objects, ¬ F.refused r → ∃ start add, F.Enters r start add
    ∧ step objects r = .ok (addToGroup F.objectName (F.rowName r) start add objects)

/-- Rows come to a fault if one of them is refused, and to their objects if none is. -/
structure Comes (F : Folding ρ γ κ) (rows : List ρ) (outcome : Except CrawlFault (List γ)) :
    Prop where
  fails : (∃ r ∈ rows, F.refused r) → ∃ cause, outcome = .error cause
  succeeds : (∀ r ∈ rows, ¬ F.refused r) → ∃ objects, outcome = .ok objects
    ∧ F.Gathered rows objects

section Runs

variable {step : List γ → ρ → Except CrawlFault (List γ)}

theorem Steps.fails (h : F.Steps step) (hrefused : ∃ r ∈ rows, F.refused r)
    (objects : List γ) : ∃ cause, rows.foldlM step objects = .error cause := by
  induction rows generalizing objects with
  | nil =>
      obtain ⟨r, hr, -⟩ := hrefused
      cases hr
  | cons r rows ih =>
      rw [List.foldlM_cons]
      by_cases hr : F.refused r
      · exact bind_fails (h.stops r objects hr)
      · obtain ⟨r', hr', hrefused⟩ := hrefused
        have hlater : ∃ r ∈ rows, F.refused r := by
          rcases List.mem_cons.mp hr' with rfl | hr'
          · exact absurd hrefused hr
          · exact ⟨r', hr', hrefused⟩
        apply bind_fails_after
        exact ih hlater

theorem Steps.gathers (h : F.Steps step) (hnone : ∀ r ∈ rows, ¬ F.refused r) :
    ∃ objects, rows.foldlM step [] = .ok objects ∧ F.Gathered rows objects := by
  -- From the end, because what the invariant speaks of are the rows that came before.
  induction rows using List.reverseRecOn with
  | nil => exact ⟨[], rfl, List.nodup_nil, rfl, by simp⟩
  | append_singleton rows r ih =>
      obtain ⟨objects, hobjects, hgathered⟩ :=
        ih fun r hr => hnone r (List.mem_append_left _ hr)
      obtain ⟨start, add, henters, hstep⟩ := h.enters r objects (hnone r (by simp))
      refine ⟨_, ?_, hgathered.concat henters⟩
      rw [List.foldlM_append, hobjects]
      show [r].foldlM step objects = _
      rw [List.foldlM_cons, hstep]
      rfl

theorem Steps.comes (h : F.Steps step) (rows : List ρ) : F.Comes rows (rows.foldlM step []) :=
  ⟨fun hrefused => h.fails hrefused [], h.gathers⟩

end Runs

/-! ## No row is lost -/

/-- Rows taken out by their names are the rows. -/
theorem flatMap_rowsNamed_perm {names : List String} (hnames : names.Nodup)
    (hall : ∀ r ∈ rows, F.rowName r ∈ names) :
    (names.flatMap (F.rowsNamed rows)).Perm rows := by
  induction names generalizing rows with
  | nil =>
      obtain rfl := List.eq_nil_iff_forall_not_mem.mpr fun r hr => List.not_mem_nil (hall r hr)
      rfl
  | cons name names ih =>
      rw [List.nodup_cons] at hnames
      rw [List.flatMap_cons]
      have hothers : ∀ name' ∈ names, F.rowsNamed rows name'
          = F.rowsNamed (rows.filter fun r => !decide (F.rowName r = name)) name' := by
        intro name' hname'
        have hne : name' ≠ name := fun heq => hnames.1 (heq ▸ hname')
        rw [rowsNamed, rowsNamed, List.filter_filter]
        apply List.filter_congr
        intro r _
        by_cases hr : F.rowName r = name'
        · simp [hr, hne]
        · simp [hr]
      have hcovered : ∀ r ∈ rows.filter fun r => !decide (F.rowName r = name),
          F.rowName r ∈ names := by
        intro r hr
        obtain ⟨hr, hne⟩ := List.mem_filter.mp hr
        exact (List.mem_cons.mp (hall r hr)).resolve_left (by simpa using hne)
      rw [List.flatMap_congr hothers]
      exact ((ih hnames.2 hcovered).append_left _).trans (List.filter_append_perm _ rows)

theorem Gathered.accounts (h : F.Gathered rows objects) : F.Accounts rows objects := by
  refine ⟨(objects.map F.objectName).flatMap (F.rowsNamed rows), ?_, ?_⟩
  · exact flatMap_rowsNamed_perm h.distinct
      fun r hr => h.mem_names.mpr (List.mem_map_of_mem hr)
  · rw [List.flatMap_map]
    have hsame : List.Forall₂ (fun o o' => o = o' ∧ o ∈ objects) objects objects :=
      List.forall₂_same.mpr fun o ho => ⟨rfl, ho⟩
    apply List.rel_flatMap hsame
    rintro o o' ⟨rfl, ho⟩
    exact (h.made o ho).entries

end Folding

end Reconcile
