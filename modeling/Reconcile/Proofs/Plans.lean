import Reconcile.Script.Plan
import Mathlib.Data.List.Forall2

/-!
# What plans consist of

Every plan of an item creates, drops or alters one object, or is empty
(`Item.plan_cases`); a plan of a table goes back to the statements of its spelling,
part by part, and any other plan has drops and creations only.  A plan that cannot
be made is not made in part, so what holds of a plan's statements needs no word
about failures.
-/

namespace Reconcile

/-! ## Computations that succeed -/

section Success

variable {ε α β : Type}

theorem bind_eq_ok {x : Except ε α} {f : α → Except ε β} {b : β} :
    x >>= f = .ok b ↔ ∃ a, x = .ok a ∧ f a = .ok b := by
  cases x with
  | error e => simp [bind, Except.bind]
  | ok a => simp [bind, Except.bind]

theorem map_eq_ok {x : Except ε α} {f : α → β} {b : β} :
    x.map f = .ok b ↔ ∃ a, x = .ok a ∧ f a = b := by
  cases x with
  | error e => simp [Except.map]
  | ok a => simp [Except.map]

/-- All of a list succeeds if every member does. -/
theorem mapM_eq_ok {f : α → Except ε β} {xs : List α} {ys : List β} :
    xs.mapM f = .ok ys ↔ List.Forall₂ (fun x y => f x = .ok y) xs ys := by
  induction xs generalizing ys with
  | nil => simp [pure, Except.pure, eq_comm]
  | cons x xs ih =>
      rw [List.mapM_cons, bind_eq_ok]
      constructor
      · rintro ⟨y, hy, hrest⟩
        obtain ⟨zs, hzs, hpure⟩ := bind_eq_ok.mp hrest
        cases hpure
        exact List.Forall₂.cons hy (ih.mp hzs)
      · intro h
        cases h with
        | cons hy hrest =>
            exact ⟨_, hy, bind_eq_ok.mpr ⟨_, ih.mpr hrest, rfl⟩⟩

theorem mem_of_mapM_eq_ok {f : α → Except ε β} {xs : List α} {ys : List β}
    (h : xs.mapM f = .ok ys) {y : β} (hy : y ∈ ys) : ∃ x ∈ xs, f x = .ok y := by
  have hall := mapM_eq_ok.mp h
  clear h
  induction hall with
  | nil => cases hy
  | cons hhead _ ih =>
      rcases List.mem_cons.mp hy with rfl | hy
      · exact ⟨_, List.mem_cons_self, hhead⟩
      · obtain ⟨x, hx, hfx⟩ := ih hy
        exact ⟨x, List.mem_cons_of_mem _ hx, hfx⟩

end Success

/-! ## Tables -/

variable {s : Spelling} {text : String} {texts : List String} {p : Plan}

/-- A statement that several edits come to is a statement of one of them. -/
theorem mem_of_editStatements {desired current : Table} {edits : List TableEdit}
    (h : editStatements s desired current edits = .ok texts) (hmem : text ∈ texts) :
    ∃ edit ∈ edits, ∃ part, edit.statements s desired current = .ok part
      ∧ text ∈ part := by
  obtain ⟨parts, hparts, rfl⟩ := map_eq_ok.mp h
  obtain ⟨part, hpart, htext⟩ := List.mem_flatten.mp hmem
  obtain ⟨edit, hedit, hstatements⟩ := mem_of_mapM_eq_ok hparts hpart
  exact ⟨edit, hedit, part, hstatements, htext⟩

namespace Table

variable {t desired current : Table}

theorem planCreate_eq_ok :
    t.planCreate s = .ok p ↔ ∃ creates createIndexes createForeignKeys,
      s.createTable t = .ok creates
      ∧ (t.indexes.filter (·.kind != .primaryKey)).mapM (s.createIndex t)
          = .ok createIndexes
      ∧ t.foreignKeys.mapM (s.createForeignKey t) = .ok createForeignKeys
      ∧ p = { creates, createIndexes, createForeignKeys } := by
  simp only [planCreate, bind_eq_ok, pure, Except.pure, Except.ok.injEq]
  constructor
  · rintro ⟨creates, hcreates, indexes, hindexes, keys, hkeys, rfl⟩
    exact ⟨creates, indexes, keys, hcreates, hindexes, hkeys, rfl⟩
  · rintro ⟨creates, indexes, keys, hcreates, hindexes, hkeys, rfl⟩
    exact ⟨creates, hcreates, indexes, hindexes, keys, hkeys, rfl⟩

theorem planAlter_eq_ok :
    planAlter s desired current = .ok p ↔
      let edits := (TableDiff.between s.options desired current).edits
      ∃ dropForeignKeys dropIndexes creates createIndexes createForeignKeys,
        editStatements s desired current edits.dropForeignKeys = .ok dropForeignKeys
        ∧ editStatements s desired current edits.dropIndexes = .ok dropIndexes
        ∧ editStatements s desired current edits.alterations = .ok creates
        ∧ editStatements s desired current edits.createIndexes = .ok createIndexes
        ∧ editStatements s desired current edits.createForeignKeys
            = .ok createForeignKeys
        ∧ p = { dropForeignKeys, dropIndexes, creates, createIndexes,
                createForeignKeys } := by
  simp only [planAlter, bind_eq_ok, pure, Except.pure, Except.ok.injEq]
  constructor
  · rintro ⟨keys, hkeys, indexes, hindexes, creates, hcreates, newIndexes,
      hnewIndexes, newKeys, hnewKeys, rfl⟩
    exact ⟨keys, indexes, creates, newIndexes, newKeys, hkeys, hindexes, hcreates,
      hnewIndexes, hnewKeys, rfl⟩
  · rintro ⟨keys, indexes, creates, newIndexes, newKeys, hkeys, hindexes, hcreates,
      hnewIndexes, hnewKeys, rfl⟩
    exact ⟨keys, hkeys, indexes, hindexes, creates, hcreates, newIndexes,
      hnewIndexes, newKeys, hnewKeys, rfl⟩

end Table

/-! ## Items -/

/-- What the plan of an item does, and to which of its objects. -/
theorem Item.plan_cases {c : Category} {d : Direction} {i : Item c}
    (h : i.plan s d = .ok p) :
    (∃ desired, i.stateFor d = .added ∧ i.desired d = some desired
      ∧ c.planCreate s desired = .ok p)
    ∨ (∃ current, i.stateFor d = .deleted ∧ i.current d = some current
      ∧ c.planDrop s current = .ok p)
    ∨ (∃ desired current, i.stateFor d = .modified ∧ i.desired d = some desired
      ∧ i.current d = some current ∧ c.planAlter s desired current = .ok p)
    ∨ (i.stateFor d = .unchanged ∧ p = {}) := by
  unfold Item.plan at h
  split at h
  · next desired hstate hdesired =>
      exact Or.inl ⟨desired, hstate, hdesired, h⟩
  · next current hstate hcurrent =>
      exact Or.inr (Or.inl ⟨current, hstate, hcurrent, h⟩)
  · next desired current hstate hdesired hcurrent =>
      exact Or.inr (Or.inr (Or.inl ⟨desired, current, hstate, hdesired, hcurrent, h⟩))
  · next hstate =>
      cases h
      exact Or.inr (Or.inr (Or.inr ⟨hstate, rfl⟩))
  · cases h

/-- What holds of the plans that create, drop and alter objects of a category, and of
the empty plan, holds of every plan of an item. -/
theorem Item.plan_of_parts {c : Category} {d : Direction} {i : Item c} {P : Plan → Prop}
    (h : i.plan s d = .ok p) (hempty : P {})
    (hcreate : ∀ desired q, c.planCreate s desired = .ok q → P q)
    (hdrop : ∀ current q, c.planDrop s current = .ok q → P q)
    (halter : ∀ desired current q, c.planAlter s desired current = .ok q → P q) : P p := by
  rcases i.plan_cases h with ⟨desired, -, -, hp⟩ | ⟨current, -, -, hp⟩
    | ⟨desired, current, -, -, -, hp⟩ | ⟨-, rfl⟩
  · exact hcreate desired p hp
  · exact hdrop current p hp
  · exact halter desired current p hp
  · exact hempty

/-! ## Plans of tables -/

/-- Every statement of a plan is one that the spelling writes for a table, in the
part where it belongs. -/
structure Plan.OfTable (s : Spelling) (p : Plan) : Prop where
  dropForeignKeys : ∀ text ∈ p.dropForeignKeys, ∃ t fk, text = s.dropForeignKey t fk
  dropIndexes : ∀ text ∈ p.dropIndexes, ∃ t i, text = s.dropIndex t i
  drops : ∀ text ∈ p.drops, ∃ t, text = s.dropTable t
  creates : ∀ text ∈ p.creates,
    (∃ t texts, s.createTable t = .ok texts ∧ text ∈ texts)
    ∨ (∃ t c, text ∈ s.dropColumn t c)
    ∨ (∃ t c, text ∈ s.addColumn t c)
    ∨ (∃ t c c' texts, s.alterColumn t c c' = .ok texts ∧ text ∈ texts)
    ∨ (∃ t t', text ∈ s.alterTableOptions t t')
  createIndexes : ∀ text ∈ p.createIndexes, ∃ t i, s.createIndex t i = .ok text
  createForeignKeys : ∀ text ∈ p.createForeignKeys,
    ∃ t fk, s.createForeignKey t fk = .ok text

namespace Table

variable {t desired current : Table}

theorem planCreate_ofTable (h : t.planCreate s = .ok p) : p.OfTable s := by
  obtain ⟨creates, indexes, keys, hcreates, hindexes, hkeys, rfl⟩ :=
    planCreate_eq_ok.mp h
  refine ⟨nofun, nofun, nofun, ?creates, ?createIndexes, ?createForeignKeys⟩
  case creates =>
      intro text hmem
      exact Or.inl ⟨t, creates, hcreates, hmem⟩
  case createIndexes =>
      intro text hmem
      obtain ⟨i, -, hi⟩ := mem_of_mapM_eq_ok hindexes hmem
      exact ⟨t, i, hi⟩
  case createForeignKeys =>
      intro text hmem
      obtain ⟨fk, -, hfk⟩ := mem_of_mapM_eq_ok hkeys hmem
      exact ⟨t, fk, hfk⟩

theorem planDrop_ofTable : (t.planDrop s).OfTable s := by
  refine ⟨?dropForeignKeys, nofun, ?drops, nofun, nofun, nofun⟩
  case dropForeignKeys =>
      intro text hmem
      obtain ⟨fk, -, rfl⟩ := List.mem_map.mp hmem
      exact ⟨t, fk, rfl⟩
  case drops =>
      intro text hmem
      exact ⟨t, List.mem_singleton.mp hmem⟩

/-- An edit of a column is a drop, an addition or an alteration. -/
theorem columnEdit_cases {m : MemberDiff Column} {edit : TableEdit}
    (h : m.columnEdit? = some edit) :
    (∃ c, edit = .dropColumn c) ∨ (∃ c, edit = .addColumn c)
      ∨ ∃ c c', edit = .alterColumn c c' := by
  unfold MemberDiff.columnEdit? at h
  split at h
  · cases h
    exact Or.inl ⟨_, rfl⟩
  · cases h
    exact Or.inr (Or.inl ⟨_, rfl⟩)
  · cases h
    exact Or.inr (Or.inr ⟨_, _, rfl⟩)
  · cases h

theorem planAlter_ofTable (h : planAlter s desired current = .ok p) :
    p.OfTable s := by
  obtain ⟨_, _, _, _, _, hdropKeys, hdropIndexes, hcreates, hindexes, hkeys, rfl⟩ :=
    planAlter_eq_ok.mp h
  refine ⟨?dropForeignKeys, ?dropIndexes, nofun, ?creates, ?createIndexes,
    ?createForeignKeys⟩
  case dropForeignKeys =>
      intro text hmem
      obtain ⟨edit, hedit, part, hpart, htext⟩ := mem_of_editStatements hdropKeys hmem
      obtain ⟨fk, -, rfl⟩ := List.mem_map.mp hedit
      cases hpart
      exact ⟨current, fk, List.mem_singleton.mp htext⟩
  case dropIndexes =>
      intro text hmem
      obtain ⟨edit, hedit, part, hpart, htext⟩ := mem_of_editStatements hdropIndexes hmem
      obtain ⟨i, -, rfl⟩ := List.mem_map.mp hedit
      cases hpart
      exact ⟨current, i, List.mem_singleton.mp htext⟩
  case creates =>
      intro text hmem
      obtain ⟨edit, hedit, part, hpart, htext⟩ := mem_of_editStatements hcreates hmem
      -- Columns are edited first, and what the table says beside its members last.
      rcases List.mem_append.mp hedit with hedit | hedit
      · obtain ⟨m, -, hm⟩ := List.mem_filterMap.mp hedit
        rcases columnEdit_cases hm with ⟨c, rfl⟩ | ⟨c, rfl⟩ | ⟨c, c', rfl⟩
        · cases hpart
          exact Or.inr (Or.inl ⟨current, c, htext⟩)
        · cases hpart
          exact Or.inr (Or.inr (Or.inl ⟨desired, c, htext⟩))
        · exact Or.inr (Or.inr (Or.inr (Or.inl ⟨desired, c, c', part, hpart, htext⟩)))
      · split at hedit
        · cases List.mem_singleton.mp hedit
          cases hpart
          exact Or.inr (Or.inr (Or.inr (Or.inr ⟨desired, current, htext⟩)))
        · cases hedit
  case createIndexes =>
      intro text hmem
      obtain ⟨edit, hedit, part, hpart, htext⟩ := mem_of_editStatements hindexes hmem
      obtain ⟨i, -, rfl⟩ := List.mem_map.mp hedit
      obtain ⟨one, hone, rfl⟩ := map_eq_ok.mp hpart
      rw [List.mem_singleton.mp htext]
      exact ⟨desired, i, hone⟩
  case createForeignKeys =>
      intro text hmem
      obtain ⟨edit, hedit, part, hpart, htext⟩ := mem_of_editStatements hkeys hmem
      obtain ⟨fk, -, rfl⟩ := List.mem_map.mp hedit
      obtain ⟨one, hone, rfl⟩ := map_eq_ok.mp hpart
      rw [List.mem_singleton.mp htext]
      exact ⟨desired, fk, hone⟩

end Table

theorem Item.plan_ofTable {d : Direction} {i : Item .table} (h : i.plan s d = .ok p) :
    p.OfTable s := by
  refine i.plan_of_parts h ⟨nofun, nofun, nofun, nofun, nofun, nofun⟩ ?create ?drop ?alter
  case create => exact fun _ _ hq => Table.planCreate_ofTable hq
  case drop =>
      intro t q hq
      cases hq
      exact Table.planDrop_ofTable
  case alter => exact fun _ _ _ hq => Table.planAlter_ofTable hq

/-! ## Plans of everything else -/

/-- A plan that has drops and creations only, which are of the given kinds. -/
structure Plan.Plain (Drop Create : String → Prop) (p : Plan) : Prop where
  drops : ∀ text ∈ p.drops, Drop text
  creates : ∀ text ∈ p.creates, Create text
  dropForeignKeys : p.dropForeignKeys = []
  dropIndexes : p.dropIndexes = []
  createIndexes : p.createIndexes = []
  createForeignKeys : p.createForeignKeys = []

namespace Plan

variable {Drop Create : String → Prop} {drop create : String}

theorem plain_empty : Plain Drop Create {} :=
  ⟨nofun, nofun, rfl, rfl, rfl, rfl⟩

theorem plain_creating (h : ∀ text ∈ texts, Create text) :
    Plain Drop Create (.creating texts) :=
  ⟨nofun, h, rfl, rfl, rfl, rfl⟩

theorem plain_dropping (h : Drop drop) : Plain Drop Create (.dropping drop) :=
  ⟨List.forall_mem_singleton.mpr h, nofun, rfl, rfl, rfl, rfl⟩

theorem plain_replacing (hdrop : Drop drop) (hcreate : Create create) :
    Plain Drop Create (.replacing drop create) :=
  ⟨List.forall_mem_singleton.mpr hdrop, List.forall_mem_singleton.mpr hcreate,
    rfl, rfl, rfl, rfl⟩

/-- A plan that creates by one statement. -/
theorem plain_of_create {x : Except ScriptFault String}
    (h : x.map (fun text => creating [text]) = .ok p)
    (hcreate : ∀ text, x = .ok text → Create text) : p.Plain Drop Create := by
  obtain ⟨text, htext, rfl⟩ := map_eq_ok.mp h
  exact plain_creating (List.forall_mem_singleton.mpr (hcreate text htext))

/-- A plan that drops and creates anew. -/
theorem plain_of_replace {x : Except ScriptFault String}
    (h : x.map (replacing drop) = .ok p) (hdrop : Drop drop)
    (hcreate : ∀ text, x = .ok text → Create text) : p.Plain Drop Create := by
  obtain ⟨text, htext, rfl⟩ := map_eq_ok.mp h
  exact plain_replacing hdrop (hcreate text htext)

end Plan

namespace Item

variable {d : Direction}

theorem plan_plain_view {i : Item .view} (h : i.plan s d = .ok p) :
    p.Plain (fun text => ∃ v, text = s.dropView v)
      (fun text => ∃ v, s.createView v = .ok text) := by
  refine i.plan_of_parts h Plan.plain_empty ?create ?drop ?alter
  case create => exact fun v _ hq => Plan.plain_of_create hq fun _ htext => ⟨v, htext⟩
  case drop =>
      intro v q hq
      cases hq
      exact Plan.plain_dropping ⟨v, rfl⟩
  case alter =>
      intro v w q hq
      exact Plan.plain_of_replace hq ⟨w, rfl⟩ fun _ htext => ⟨v, htext⟩

/-- Functions and procedures are planned alike. -/
theorem plan_plain_routine {c : Category} {i : Item c}
    (hc : c = .function ∨ c = .procedure) (h : i.plan s d = .ok p) :
    p.Plain (fun text => ∃ x, text = s.dropRoutine x)
      (fun text => ∃ x, s.createRoutine x = .ok text) := by
  rcases hc with rfl | rfl
  all_goals
    refine i.plan_of_parts h Plan.plain_empty ?create ?drop ?alter
    case create =>
        exact fun x _ hq => Plan.plain_of_create hq fun _ htext => ⟨x, htext⟩
    case drop =>
        intro x q hq
        cases hq
        exact Plan.plain_dropping ⟨x, rfl⟩
    case alter =>
        intro x y q hq
        exact Plan.plain_of_replace hq ⟨y, rfl⟩ fun _ htext => ⟨x, htext⟩

theorem plan_plain_sequence {i : Item .sequence} (h : i.plan s d = .ok p) :
    p.Plain (fun text => ∃ q, s.dropSequence q = .ok text)
      (fun text => (∃ q, s.createSequence q = .ok text)
        ∨ ∃ q u texts, s.alterSequence q u = .ok texts ∧ text ∈ texts) := by
  refine i.plan_of_parts h Plan.plain_empty ?create ?drop ?alter
  case create =>
      exact fun q _ hq => Plan.plain_of_create hq fun _ htext => Or.inl ⟨q, htext⟩
  case drop =>
      intro q p hp
      obtain ⟨text, htext, rfl⟩ := map_eq_ok.mp hp
      exact Plan.plain_dropping ⟨q, htext⟩
  case alter =>
      intro q u p hp
      obtain ⟨texts, htexts, rfl⟩ := map_eq_ok.mp hp
      refine Plan.plain_creating fun text hmem => ?_
      exact Or.inr ⟨q, u, texts, htexts, hmem⟩

end Item

end Reconcile
