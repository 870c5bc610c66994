import Reconcile.Proofs.Filing
import Reconcile.Script.Annotation
import Mathlib.Data.Finset.Card

/-!
# Models made by additions

A model is put together by adding tables, views, routines and sequences to an empty one.  What
it holds in the end is what was added last under each category and key, each object under its
own key, and each routine in the category of its kind (`Model.Collects`).  That says what every
lookup finds, so the order of the additions matters only between objects of one place: where
each place is taken once, any order makes the same model (`Model.ofAdditions_of_perm`).
-/

namespace Reconcile

/-! ## Places -/

/-- Where an object belongs. -/
def Filed.place (x : Filed) : Category × Key :=
  (x.1, x.1.keyOf x.2)

section Places

variable {found found' : List Filed} {d : Category} {k : Key} {y : d.Object}

theorem Filed.at_iff {x : Filed} : x.At d k ↔ x.place = (d, k) :=
  Prod.mk.injEq .. ▸ Iff.rfl

/-- A place that something was filed in has a last object. -/
theorem Filed.exists_last : (∃ y, Filed.Last found d k y) ↔ (d, k) ∈ found.map Filed.place := by
  constructor
  · rintro ⟨y, before, after, rfl, rfl, -⟩
    apply List.mem_map_of_mem (a := (⟨d, y⟩ : Filed))
    simp
  · intro h
    induction found using List.reverseRecOn with
    | nil => cases h
    | append_singleton found x ih =>
        by_cases hx : x.place = (d, k)
        · obtain ⟨c, x⟩ := x
          obtain rfl : c = d := congrArg Prod.fst hx
          exact ⟨x, found, [], rfl, congrArg Prod.snd hx, by simp⟩
        · rw [List.map_append, List.mem_append] at h
          rcases h with h | h
          · obtain ⟨y, before, after, rfl, hkey, hafter⟩ := ih h
            refine ⟨y, before, after ++ [x], by simp, hkey, ?_⟩
            intro z hz
            rcases List.mem_append.mp hz with hz | hz
            · exact hafter z hz
            · rw [List.mem_singleton.mp hz, Filed.at_iff]
              exact hx
          · exact absurd (List.mem_singleton.mp h).symm hx

/-- Where each place is taken once, whatever was filed is the last in its place. -/
theorem Filed.last_iff_mem (h : (found.map Filed.place).Nodup) :
    Filed.Last found d k y ↔ (⟨d, y⟩ : Filed) ∈ found ∧ d.keyOf y = k := by
  constructor
  · rintro ⟨before, after, rfl, hkey, -⟩
    exact ⟨by simp, hkey⟩
  · rintro ⟨hmem, hkey⟩
    obtain ⟨before, after, rfl⟩ := List.append_of_mem hmem
    refine ⟨before, after, rfl, hkey, ?_⟩
    intro x hx hat
    rw [List.map_append, List.map_cons] at h
    have hother := (List.nodup_cons.mp (List.nodup_append.mp h).2.1).1
    have hplace : x.place = Filed.place ⟨d, y⟩ := (Filed.at_iff.mp hat).trans (by rw [← hkey]; rfl)
    exact hother (hplace ▸ List.mem_map_of_mem hx)

theorem Filed.last_iff_of_perm (hperm : found.Perm found') (h : (found.map Filed.place).Nodup) :
    Filed.Last found' d k y ↔ Filed.Last found d k y := by
  have h' : (found'.map Filed.place).Nodup := (hperm.map _).nodup_iff.mp h
  rw [Filed.last_iff_mem h', Filed.last_iff_mem h, hperm.mem_iff]

end Places

/-! ## Models by what they hold -/

namespace Keyed

variable {α : Type} {a b : Keyed α}

/-- An ascending collection is known by what is filed in it. -/
theorem Ascending.eq_of_mem_iff (ha : a.Ascending) (hb : b.Ascending)
    (h : ∀ k x, (k, x) ∈ a ↔ (k, x) ∈ b) : a = b := by
  have hirrefl : Std.Irrefl fun x y : Key × α => (x.1.before y.1 : Prop) :=
    ⟨fun x => Key.not_before_self x.1⟩
  have hantisymm : Std.Antisymm fun x y : Key × α => (x.1.before y.1 : Prop) :=
    ⟨fun _ _ hxy hyx => absurd hyx (Key.before_asymm hxy)⟩
  apply List.Pairwise.eq_of_mem_iff (List.pairwise_map.mp ha) (List.pairwise_map.mp hb)
  rintro ⟨k, x⟩
  exact h k x

theorem mem_keys {k : Key} : k ∈ a.keys ↔ ∃ x, (k, x) ∈ a := by
  simp [keys]

end Keyed

namespace Model

variable {m n : Model} {found found' : List Filed}

theorem eq_of_objects (hdialect : m.dialect = n.dialect) (hdatabase : m.database = n.database)
    (h : ∀ c, m.objects c = n.objects c) : m = n := by
  cases m
  cases n
  obtain rfl := hdialect
  obtain rfl := hdatabase
  obtain rfl := h .sequence
  obtain rfl := h .table
  obtain rfl := h .view
  obtain rfl := h .function
  obtain rfl := h .procedure
  rfl

theorem HoldsExactly.mem_iff (h : m.HoldsExactly found) {c : Category} {k : Key} {x : c.Object} :
    (k, x) ∈ m.objects c ↔ Filed.Last found c k x := by
  rw [← (h.ordered c).find?_eq_some]
  exact h.last c k x

/-- Two models that hold the same are the same. -/
theorem HoldsExactly.eq_of_last (h : m.HoldsExactly found) (h' : n.HoldsExactly found')
    (hdialect : m.dialect = n.dialect) (hdatabase : m.database = n.database)
    (hlast : ∀ c k (x : c.Object), Filed.Last found c k x ↔ Filed.Last found' c k x) : m = n := by
  apply eq_of_objects hdialect hdatabase
  intro c
  apply (h.ordered c).eq_of_mem_iff (h'.ordered c)
  intro k x
  rw [h.mem_iff, h'.mem_iff]
  exact hlast c k x

/-- The places that are taken in a model. -/
def places (m : Model) : List (Category × Key) :=
  Category.all.flatMap fun c => (m.objects c).keys.map (c, ·)

theorem length_places (m : Model) : m.places.length = m.objectCount := by
  simp [places, objectCount, Category.all, Keyed.keys]

theorem mem_places {c : Category} {k : Key} :
    (c, k) ∈ m.places ↔ k ∈ (m.objects c).keys := by
  have hall : c ∈ Category.all := by cases c <;> decide
  simp [places, hall]

theorem Ordered.nodup_places (h : m.Ordered) : m.places.Nodup := by
  have hall : Category.all.Nodup := by decide
  unfold places
  rw [List.nodup_flatMap]
  constructor
  · intro c _
    exact (h c).nodup.map (Prod.mk_right_injective c)
  · apply hall.imp
    intro c d hne
    show List.Disjoint (List.map _ _) (List.map _ _)
    rw [List.disjoint_left]
    rintro ⟨e, k⟩ hc hd
    simp only [List.mem_map, Prod.mk.injEq] at hc hd
    obtain ⟨-, -, rfl, -⟩ := hc
    obtain ⟨-, -, rfl, -⟩ := hd
    exact hne rfl

theorem HoldsExactly.mem_places_iff (h : m.HoldsExactly found) {c : Category} {k : Key} :
    (c, k) ∈ m.places ↔ (c, k) ∈ found.map Filed.place := by
  rw [mem_places, Keyed.mem_keys, ← Filed.exists_last]
  exact exists_congr fun x => h.mem_iff

/-- There are as many objects as places that something was filed in. -/
theorem HoldsExactly.objectCount_eq (h : m.HoldsExactly found) :
    m.objectCount = (found.map Filed.place).toFinset.card := by
  rw [← length_places, ← List.toFinset_card_of_nodup h.ordered.nodup_places]
  apply congrArg Finset.card
  ext ⟨c, k⟩
  rw [List.mem_toFinset, List.mem_toFinset]
  exact h.mem_places_iff

end Model

/-! ## Additions -/

/-- An object that is added to a model. -/
inductive Addition where
  | sequence (s : Sequence)
  | table (t : Table)
  | view (v : View)
  | routine (r : Routine)

namespace Addition

/-- The category that the object belongs to, and its key there. -/
def place : Addition → Category × Key
  | .sequence s => (.sequence, s.key)
  | .table t => (.table, t.key)
  | .view v => (.view, v.key)
  | .routine r => (r.kind.category, r.key)

def filed : Addition → Filed
  | .sequence s => ⟨.sequence, s⟩
  | .table t => ⟨.table, t⟩
  | .view v => ⟨.view, v⟩
  | .routine r => Category.ownRoutine r

theorem place_filed (a : Addition) : a.filed.place = a.place := by
  cases a with
  | routine r =>
      obtain ⟨schema, name, kind, definition, arguments, returnType⟩ := r
      cases kind <;> rfl
  | _ => rfl

theorem map_place_filed (additions : List Addition) :
    (additions.map filed).map Filed.place = additions.map place := by
  rw [List.map_map]
  exact List.map_congr_left fun a _ => a.place_filed

/-- Only routines are filed as functions or procedures, each as what it is. -/
theorem kind_of_filed {a : Addition} {r : Routine} :
    (a.filed = ⟨.function, r⟩ → r.kind = .function)
      ∧ (a.filed = ⟨.procedure, r⟩ → r.kind = .procedure) := by
  cases a with
  | routine r' =>
      obtain ⟨schema, name, kind, definition, arguments, returnType⟩ := r'
      cases kind with
      | function =>
          constructor
          · rintro ⟨⟩
            rfl
          · rintro ⟨⟩
      | procedure =>
          constructor
          · rintro ⟨⟩
          · rintro ⟨⟩
            rfl
  | _ =>
      constructor
      · rintro ⟨⟩
      · rintro ⟨⟩

end Addition

namespace Model

variable {m : Model} {additions reordered : List Addition}

def adding (m : Model) : Addition → Model
  | .sequence s => m.addSequence s
  | .table t => m.addTable t
  | .view v => m.addView v
  | .routine r => m.addRoutine r

/-- The model of a database to which objects were added one after another. -/
def ofAdditions (dialect : Dialect) (database : String) (additions : List Addition) : Model :=
  additions.foldl adding { dialect, database }

theorem adding_eq (m : Model) (a : Addition) : m.adding a = m.file a.filed := by
  cases a with
  | routine r => exact m.addRoutine_eq r
  | _ => rfl

theorem ofAdditions_eq (dialect : Dialect) (database : String) (additions : List Addition) :
    ofAdditions dialect database additions
      = (additions.map Addition.filed).foldl file { dialect, database } := by
  rw [ofAdditions, List.foldl_map]
  exact congrArg (fun f => List.foldl f _ additions) (funext fun m => funext m.adding_eq)

theorem holdsExactly_ofAdditions (dialect : Dialect) (database : String)
    (additions : List Addition) :
    (ofAdditions dialect database additions).HoldsExactly (additions.map Addition.filed) := by
  rw [ofAdditions_eq]
  exact holdsExactly_foldl dialect database _

/-- What a model holds of the objects that were added to it. -/
structure Collects (m : Model) (additions : List Addition) : Prop where
  /-- Every object is filed under its own key. -/
  own : ∀ c, ∀ entry ∈ m.objects c, c.keyOf entry.2 = entry.1
  /-- Every key is there once. -/
  once : ∀ c, (m.objects c).keys.Nodup
  functions : ∀ entry ∈ m.functions, entry.2.kind = .function
  procedures : ∀ entry ∈ m.procedures, entry.2.kind = .procedure
  /-- Something is filed in just the places that objects were added to. -/
  placed : ∀ c k, k ∈ (m.objects c).keys ↔ (c, k) ∈ additions.map Addition.place
  /-- It is the last object that was added to the place. -/
  last : ∀ c k x, (k, x) ∈ m.objects c ↔ Filed.Last (additions.map Addition.filed) c k x
  count : m.objectCount = (additions.map Addition.place).toFinset.card

theorem HoldsExactly.collects (h : m.HoldsExactly (additions.map Addition.filed)) :
    m.Collects additions := by
  have hadded : ∀ c k (x : c.Object), (k, x) ∈ m.objects c →
      c.keyOf x = k ∧ ∃ a ∈ additions, a.filed = ⟨c, x⟩ := by
    intro c k x hx
    obtain ⟨before, after, hsplit, hkey, -⟩ := h.mem_iff.mp hx
    have hmem : (⟨c, x⟩ : Filed) ∈ additions.map Addition.filed := by
      rw [hsplit]
      simp
    exact ⟨hkey, List.mem_map.mp hmem⟩
  constructor
  case own =>
    rintro c ⟨k, x⟩ hx
    exact (hadded c k x hx).1
  case once => exact fun c => (h.ordered c).nodup
  case functions =>
    rintro ⟨k, r⟩ hr
    obtain ⟨-, a, -, hfiled⟩ := hadded .function k r hr
    exact Addition.kind_of_filed.1 hfiled
  case procedures =>
    rintro ⟨k, r⟩ hr
    obtain ⟨-, a, -, hfiled⟩ := hadded .procedure k r hr
    exact Addition.kind_of_filed.2 hfiled
  case placed =>
    intro c k
    rw [← mem_places, h.mem_places_iff, Addition.map_place_filed]
  case last => exact fun c k x => h.mem_iff
  case count => rw [h.objectCount_eq, Addition.map_place_filed]

/-- Where each place is taken once, the order of the additions does not matter. -/
theorem ofAdditions_of_perm (dialect : Dialect) (database : String)
    (hperm : additions.Perm reordered) (honce : (additions.map Addition.place).Nodup) :
    ofAdditions dialect database reordered = ofAdditions dialect database additions := by
  have hfiled : ((additions.map Addition.filed).map Filed.place).Nodup := by
    rw [Addition.map_place_filed]
    exact honce
  have hbeside : ∀ found : List Filed,
      (found.foldl file { dialect, database }).dialect = dialect
        ∧ (found.foldl file { dialect, database }).database = database :=
    fun found => foldl_file_beside found _
  rw [ofAdditions_eq, ofAdditions_eq]
  apply (holdsExactly_foldl dialect database _).eq_of_last (holdsExactly_foldl dialect database _)
  · rw [(hbeside _).1, (hbeside _).1]
  · rw [(hbeside _).2, (hbeside _).2]
  · intro c k x
    exact Filed.last_iff_of_perm (hperm.map _) hfiled

/-- A model holds the last object of every place that objects were added to, and nothing else;
and objects of different places may be added in any order, whatever the model is then compared
with. -/
theorem additions_decide (dialect : Dialect) (database : String) (additions : List Addition) :
    (ofAdditions dialect database additions).Collects additions
    ∧ ∀ reordered : List Addition, additions.Perm reordered →
        (additions.map Addition.place).Nodup →
        ofAdditions dialect database reordered = ofAdditions dialect database additions
        ∧ ∀ (s : Spelling) (o : Options) (other : Model),
            (Comparison.between o (ofAdditions dialect database reordered) other).scripted s
              = (Comparison.between o (ofAdditions dialect database additions) other).scripted s
            ∧ (Comparison.between o other (ofAdditions dialect database reordered)).scripted s
              = (Comparison.between o other
                  (ofAdditions dialect database additions)).scripted s := by
  constructor
  · exact (holdsExactly_ofAdditions dialect database additions).collects
  · intro reordered hperm honce
    have hsame := ofAdditions_of_perm dialect database hperm honce
    refine ⟨hsame, ?_⟩
    intro s o other
    rw [hsame]
    exact ⟨rfl, rfl⟩

/-- A function of a name that has several. -/
def areaOf (arguments : String) : Routine :=
  { schema := "public", name := "area", kind := .function, definition := ".."
    arguments := some arguments }

/-- A table between two functions of one name. -/
def areaAdditions : List Addition :=
  [.routine (areaOf "r integer"), .table { schema := "public", name := "orders" },
   .routine (areaOf "w integer, h integer")]

theorem additions_decide_areas :
    (areaAdditions.map Addition.place).Nodup
    ∧ (ofAdditions .postgreSql "app" areaAdditions).objectCount = 3
    ∧ ofAdditions .postgreSql "app" areaAdditions.reverse
      = ofAdditions .postgreSql "app" areaAdditions := by
  have honce : (areaAdditions.map Addition.place).Nodup := by decide
  obtain ⟨hcollects, horder⟩ := additions_decide .postgreSql "app" areaAdditions
  refine ⟨honce, ?_, (horder _ areaAdditions.reverse_perm.symm honce).1⟩
  rw [hcollects.count, List.toFinset_card_of_nodup honce]
  rfl

end Model

end Reconcile
