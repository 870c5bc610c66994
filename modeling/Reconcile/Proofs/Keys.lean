import Reconcile.Schema.Model
import Mathlib.Data.List.Sort
import Mathlib.Data.String.Basic

/-!
# Ascending collections

Keys are strictly and totally ordered, and a collection files its values in strictly
ascending order of them.  Filing and removing keep to the order, so every model that
is put together object by object is in order (`Model.ordered_add`).  In such
collections the listing of the keys of either of two is a matter of which keys there
are, whichever collection comes first (`Keyed.unionKeys_comm`).
-/

namespace Reconcile

/-! ## The order of keys -/

namespace Key

variable {a b c : Key}

theorem before_iff :
    a.before b ↔ a.schema < b.schema ∨ (a.schema = b.schema ∧ a.name < b.name) := by
  simp [before]

theorem not_before_self (a : Key) : ¬ a.before a := by
  rw [before_iff]
  rintro (h | ⟨-, h⟩)
  · exact String.lt_irrefl _ h
  · exact String.lt_irrefl _ h

theorem before_trans (hab : a.before b) (hbc : b.before c) : a.before c := by
  rw [before_iff] at hab hbc ⊢
  rcases hab with hab | ⟨hab, hnames⟩
  · rcases hbc with hbc | ⟨hbc, -⟩
    · exact Or.inl (String.lt_trans hab hbc)
    · exact Or.inl (hbc ▸ hab)
  · rcases hbc with hbc | ⟨hbc, hnames'⟩
    · exact Or.inl (hab ▸ hbc)
    · exact Or.inr ⟨hab.trans hbc, String.lt_trans hnames hnames'⟩

theorem before_asymm (hab : a.before b) : ¬ b.before a :=
  fun hba => not_before_self a (before_trans hab hba)

/-- Of two keys one comes first, unless they are the same. -/
theorem before_trichotomy (a b : Key) : a.before b ∨ a = b ∨ b.before a := by
  rw [before_iff, before_iff]
  rcases lt_trichotomy a.schema b.schema with h | h | h
  · exact Or.inl (Or.inl h)
  · rcases lt_trichotomy a.name b.name with h' | h' | h'
    · exact Or.inl (Or.inr ⟨h, h'⟩)
    · refine Or.inr (Or.inl ?_)
      cases a
      cases b
      cases h
      cases h'
      rfl
    · exact Or.inr (Or.inr (Or.inr ⟨h.symm, h'⟩))
  · exact Or.inr (Or.inr (Or.inl h))

/-- Two keys of which neither comes before the other are the same. -/
theorem eq_of_not_before (hab : ¬ a.before b) (hba : ¬ b.before a) : a = b := by
  rcases before_trichotomy a b with h | h | h
  · exact absurd h hab
  · exact h
  · exact absurd h hba

/-- The keys stand in strictly ascending order. -/
def Ascending (ks : List Key) : Prop :=
  ks.Pairwise fun a b => a.before b

instance (ks : List Key) : Decidable (Ascending ks) := by
  unfold Ascending
  infer_instance

theorem mem_insertInto {ks : List Key} {key k : Key} :
    k ∈ key.insertInto ks ↔ k = key ∨ k ∈ ks := by
  induction ks with
  | nil => simp [insertInto]
  | cons head rest ih =>
      rw [insertInto]
      split
      · exact List.mem_cons
      · next hkey =>
          split
          · rw [List.mem_cons, ih, List.mem_cons]
            exact or_left_comm
          · next hhead =>
              -- Neither key comes first, so the list has the key already.
              obtain rfl := eq_of_not_before hkey hhead
              simp

theorem ascending_insertInto {ks : List Key} (h : Ascending ks) (key : Key) :
    Ascending (key.insertInto ks) := by
  induction ks with
  | nil => exact List.pairwise_singleton _ _
  | cons head rest ih =>
      obtain ⟨hhead, hrest⟩ := List.pairwise_cons.mp h
      rw [insertInto]
      split
      · next hkey =>
          refine List.pairwise_cons.mpr ⟨fun k hk => ?_, h⟩
          rcases List.mem_cons.mp hk with rfl | hk
          · exact hkey
          · exact before_trans hkey (hhead k hk)
      · split
        · next hbefore =>
            refine List.pairwise_cons.mpr ⟨fun k hk => ?_, ih hrest⟩
            rcases mem_insertInto.mp hk with rfl | hk
            · exact hbefore
            · exact hhead k hk
        · exact h

theorem Ascending.nodup {ks : List Key} (h : Ascending ks) : ks.Nodup := by
  refine h.imp fun {a b} hab => ?_
  rintro rfl
  exact not_before_self a hab

/-- An ascending list of keys is known by what is in it. -/
theorem Ascending.eq_of_mem_iff {ks ks' : List Key} (h : Ascending ks)
    (h' : Ascending ks') (hmem : ∀ k, k ∈ ks ↔ k ∈ ks') : ks = ks' := by
  have hirrefl : Std.Irrefl fun a b : Key => (a.before b : Prop) := ⟨not_before_self⟩
  have hantisymm : Std.Antisymm fun a b : Key => (a.before b : Prop) :=
    ⟨fun _ _ hab hba => absurd hba (before_asymm hab)⟩
  exact List.Pairwise.eq_of_mem_iff h h' hmem

end Key

/-! ## Collections -/

namespace Keyed

variable {α : Type} {m a b : Keyed α} {key k : Key} {value : α}

/-- The values are filed in strictly ascending order of their keys. -/
def Ascending (m : Keyed α) : Prop :=
  Key.Ascending m.keys

instance (m : Keyed α) : Decidable m.Ascending := by
  unfold Ascending
  infer_instance

theorem ascending_nil : Ascending ([] : Keyed α) :=
  List.Pairwise.nil

/-- Filing a value files its key. -/
theorem keys_insert (key : Key) (value : α) (m : Keyed α) :
    (m.insert key value).keys = key.insertInto m.keys := by
  induction m with
  | nil => rfl
  | cons entry rest ih =>
      obtain ⟨head, v⟩ := entry
      change (insert key value ((head, v) :: rest)).keys
        = key.insertInto (head :: keys rest)
      rw [insert, Key.insertInto]
      split
      · rfl
      · next hkey =>
          split
          · exact congrArg (head :: ·) ih
          · next hhead =>
              obtain rfl := Key.eq_of_not_before hkey hhead
              rfl

theorem Ascending.insert (h : m.Ascending) (key : Key) (value : α) :
    (m.insert key value).Ascending := by
  unfold Ascending
  rw [keys_insert]
  exact Key.ascending_insertInto h key

theorem mem_unionKeys : k ∈ a.unionKeys b ↔ k ∈ a.keys ∨ k ∈ b.keys := by
  unfold unionKeys
  generalize a.keys = ks
  generalize b.keys = added
  induction added generalizing ks with
  | nil => simp
  | cons key rest ih =>
      rw [List.foldl_cons, ih, Key.mem_insertInto, List.mem_cons]
      constructor
      · rintro ((rfl | h) | h)
        · exact Or.inr (Or.inl rfl)
        · exact Or.inl h
        · exact Or.inr (Or.inr h)
      · rintro (h | rfl | h)
        · exact Or.inl (Or.inr h)
        · exact Or.inl (Or.inl rfl)
        · exact Or.inr h

theorem ascending_unionKeys (ha : a.Ascending) (b : Keyed α) :
    Key.Ascending (a.unionKeys b) := by
  unfold Ascending at ha
  unfold unionKeys
  generalize a.keys = ks at ha
  generalize b.keys = added
  induction added generalizing ks with
  | nil => exact ha
  | cons key rest ih => exact ih _ (Key.ascending_insertInto ha key)

/-- The keys of two collections are the same list whichever comes first. -/
theorem unionKeys_comm (ha : a.Ascending) (hb : b.Ascending) :
    a.unionKeys b = b.unionKeys a := by
  refine (ascending_unionKeys ha b).eq_of_mem_iff (ascending_unionKeys hb a) fun k => ?_
  rw [mem_unionKeys, mem_unionKeys]
  exact or_comm

/-- What is found was filed. -/
theorem mem_of_find? (h : m.find? key = some value) : (key, value) ∈ m := by
  induction m with
  | nil => cases h
  | cons entry rest ih =>
      obtain ⟨head, v⟩ := entry
      rw [find?] at h
      split at h
      · next hkey =>
          obtain rfl := hkey
          obtain rfl := Option.some.inj h
          exact List.mem_cons_self
      · exact List.mem_cons_of_mem _ (ih h)

/-- Nothing is found under the keys that are not there, and under no others. -/
theorem find?_eq_none : m.find? key = none ↔ key ∉ m.keys := by
  induction m with
  | nil => simp [find?, keys]
  | cons entry rest ih =>
      obtain ⟨head, v⟩ := entry
      change find? key ((head, v) :: rest) = none ↔ key ∉ head :: keys rest
      rw [find?, List.mem_cons, not_or]
      by_cases hkey : head = key
      · simp [hkey]
      · rw [if_neg hkey, ih]
        have hother : ¬ key = head := fun h => hkey h.symm
        simp [hother]

theorem ascending_cons {v : α} :
    Ascending ((key, v) :: m) ↔ (∀ k ∈ m.keys, key.before k) ∧ m.Ascending :=
  List.pairwise_cons

/-- In an ascending collection what was filed is found. -/
theorem Ascending.find?_eq_some (h : m.Ascending) :
    m.find? key = some value ↔ (key, value) ∈ m := by
  refine ⟨mem_of_find?, fun hmem => ?_⟩
  induction m with
  | nil => cases hmem
  | cons entry rest ih =>
      obtain ⟨head, v⟩ := entry
      obtain ⟨hhead, hrest⟩ := ascending_cons.mp h
      rw [find?]
      rcases List.mem_cons.mp hmem with hsame | hmem
      · cases hsame
        exact if_pos rfl
      · have hbefore := hhead key (List.mem_map_of_mem (f := Prod.fst) hmem)
        have hne : head ≠ key := by
          rintro rfl
          exact Key.not_before_self head hbefore
        rw [if_neg hne]
        exact ih hrest hmem

/-- An ascending collection is its keys with what is found under each. -/
theorem Ascending.map_find?_keys (h : m.Ascending) :
    m.keys.map (fun k => (k, m.find? k)) = m.map fun entry => (entry.1, some entry.2) := by
  unfold keys
  rw [List.map_map]
  refine List.map_congr_left fun entry hentry => ?_
  have hfound : m.find? entry.1 = some entry.2 := h.find?_eq_some.mpr hentry
  exact congrArg (Prod.mk entry.1) hfound

/-- Filing a value changes what is found under its key alone. -/
theorem find?_insert (key k : Key) (value : α) (m : Keyed α) :
    (m.insert key value).find? k = if key = k then some value else m.find? k := by
  induction m with
  | nil => rfl
  | cons entry rest ih =>
      obtain ⟨head, v⟩ := entry
      rw [insert]
      split
      · rfl
      · next hkey =>
          split
          · next hhead =>
              have hne : head ≠ key := by
                rintro rfl
                exact Key.not_before_self head hhead
              rw [find?, find?, ih]
              by_cases hk : head = k
              · have hother : key ≠ k := fun h => hne (hk.trans h.symm)
                rw [if_pos hk, if_neg hother, if_pos hk]
              · rw [if_neg hk, if_neg hk]
          · next hhead =>
              obtain rfl := Key.eq_of_not_before hkey hhead
              rw [find?, find?]
              by_cases hk : key = k
              · rw [if_pos hk, if_pos hk]
              · rw [if_neg hk, if_neg hk, if_neg hk]

theorem keys_erase_sublist (key : Key) (m : Keyed α) : (m.erase key).keys.Sublist m.keys := by
  induction m with
  | nil => exact List.Sublist.slnil
  | cons entry rest ih =>
      obtain ⟨head, v⟩ := entry
      rw [erase]
      split
      · exact List.sublist_cons_self head (keys rest)
      · exact ih.cons_cons head

theorem Ascending.erase (h : m.Ascending) (key : Key) : (m.erase key).Ascending :=
  h.sublist (keys_erase_sublist key m)

/-- Removing a key changes what is found under that key alone. -/
theorem Ascending.find?_erase (h : m.Ascending) (key k : Key) :
    (m.erase key).find? k = if key = k then none else m.find? k := by
  induction m with
  | nil => simp [Keyed.erase, find?]
  | cons entry rest ih =>
      obtain ⟨head, v⟩ := entry
      obtain ⟨hhead, hrest⟩ := ascending_cons.mp h
      rw [Keyed.erase]
      by_cases hhead_key : head = key
      · rw [if_pos hhead_key, find?, hhead_key]
        by_cases hk : key = k
        · -- The key stood in front, so it does not stand behind as well.
          rw [if_pos hk, find?_eq_none]
          intro hmem
          have hbefore := hhead k hmem
          rw [hhead_key, hk] at hbefore
          exact Key.not_before_self k hbefore
        · rw [if_neg hk, if_neg hk]
      · rw [if_neg hhead_key, find?, find?, ih hrest]
        by_cases hk : head = k
        · have hother : key ≠ k := fun h => hhead_key (hk.trans h.symm)
          rw [if_pos hk, if_neg hother, if_pos hk]
        · rw [if_neg hk, if_neg hk]

end Keyed

/-! ## Models -/

namespace Model

/-- Every category is filed in ascending order. -/
def Ordered (m : Model) : Prop :=
  ∀ c, (m.objects c).Ascending

instance (m : Model) : Decidable m.Ordered :=
  decidable_of_iff (∀ c ∈ Category.all, (m.objects c).Ascending)
    ⟨fun h c => h c (by cases c <;> decide), fun h c _ => h c⟩

/-- A model without objects is in order. -/
theorem ordered_empty (d : Dialect) (database : String) :
    Ordered { dialect := d, database } := by
  intro c
  cases c <;> exact Keyed.ascending_nil

theorem ordered_addRoutine {m : Model} (h : m.Ordered) (r : Routine) :
    (m.addRoutine r).Ordered := by
  intro e
  unfold addRoutine
  split
  · cases e with
    | function => exact (h .function).insert _ _
    | _ => exact h _
  · cases e with
    | procedure => exact (h .procedure).insert _ _
    | _ => exact h _

/-- Whatever is added to a model in order, it stays in order. -/
theorem ordered_add {m : Model} (h : m.Ordered) (c : Category) (object : c.Object) :
    (m.add c object).Ordered := by
  cases c with
  | sequence =>
      intro e
      cases e with
      | sequence => exact (h .sequence).insert _ _
      | _ => exact h _
  | table =>
      intro e
      cases e with
      | table => exact (h .table).insert _ _
      | _ => exact h _
  | view =>
      intro e
      cases e with
      | view => exact (h .view).insert _ _
      | _ => exact h _
  | function => exact ordered_addRoutine h object
  | procedure => exact ordered_addRoutine h object

end Model

end Reconcile
