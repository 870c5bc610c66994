import Reconcile.Proofs.Differences
import Reconcile.Proofs.Keys
import Reconcile.Proofs.Phases

/-!
# Comparisons from either side

Exchanging the two models of a comparison exchanges the sides of every item and
nothing else, and what a script brings about in one direction is what the script of
the exchanged comparison brings about in the other.  A script reads an item only
through its key, its state and its two objects as its direction sees them, so that the
scripts agree statement by statement follows from the items alone
(`Mirrors.statements_eq`); that the items mirror each other is where the equalities,
the pairing of members and the order of keys come in (`between_mirrors`).
-/

namespace Reconcile

/-! ## Items -/

/-- What two items say beside their states is each other's view from the other side. -/
def Category.DetailMirrors : (c : Category) → c.Detail → c.Detail → Prop
  | .table, d, d' => d.Mirrors d'
  | .sequence, _, _ => True
  | .view, _, _ => True
  | .function, _, _ => True
  | .procedure, _, _ => True

namespace Item

variable {c : Category} {i j : Item c}

/-- Two items are each other's view from the other side. -/
structure Mirrors (i j : Item c) : Prop where
  key : i.key = j.key
  state : i.state = j.state.reversed
  source : i.source = j.target
  target : i.target = j.source
  detail : c.DetailMirrors i.detail j.detail

namespace Mirrors

variable {s : Spelling} (h : i.Mirrors j) (d : Direction)
include h

theorem stateFor_eq : i.stateFor d = j.stateFor d.reversed := by
  cases d with
  | sourceToTarget => exact h.state
  | targetToSource =>
      change i.state.reversed = j.state
      rw [h.state, DiffState.reversed_reversed]

theorem desired_eq : i.desired d = j.desired d.reversed := by
  cases d with
  | sourceToTarget => exact h.source
  | targetToSource => exact h.target

theorem current_eq : i.current d = j.current d.reversed := by
  cases d with
  | sourceToTarget => exact h.target
  | targetToSource => exact h.source

/-- Going one way with an item is going the other way with its mirror image. -/
theorem plan_eq : i.plan s d = j.plan s d.reversed := by
  unfold plan
  rw [h.stateFor_eq d, h.desired_eq d, h.current_eq d, h.key]

omit d in
theorem differs_eq : (i.state != .unchanged) = (j.state != .unchanged) := by
  rw [h.state]
  cases j.state <;> rfl

end Mirrors

end Item

/-! ## Comparisons -/

namespace Comparison

variable {r r' : Comparison} {s : Spelling}

/-- Two comparisons are each other's view from the other side: the same keys in the
same order, and at every key items that mirror each other. -/
structure Mirrors (r r' : Comparison) : Prop where
  dialect : r.dialect = r'.dialect
  options : r.options = r'.options
  items : ∀ c, List.Forall₂ Item.Mirrors (r.items c) (r'.items c)

/-- What every item comes to by itself comes to the same over related items. -/
theorem map_eq_of_forall₂ {α β γ : Type} {R : α → β → Prop} {xs : List α} {ys : List β}
    {f : α → γ} {g : β → γ} (h : List.Forall₂ R xs ys)
    (hfg : ∀ x y, R x y → f x = g y) : xs.map f = ys.map g := by
  induction h with
  | nil => rfl
  | cons hxy _ ih => rw [List.map_cons, List.map_cons, hfg _ _ hxy, ih]

/-- A test that related items pass or fail together leaves related items. -/
theorem filter_forall₂ {α β : Type} {R : α → β → Prop} {xs : List α} {ys : List β}
    {p : α → Bool} {q : β → Bool} (h : List.Forall₂ R xs ys)
    (hpq : ∀ x y, R x y → p x = q y) :
    List.Forall₂ R (xs.filter p) (ys.filter q) :=
  List.rel_filter (fun x y hxy => Bool.eq_iff_iff.mp (hpq x y hxy)) h

namespace Mirrors

variable (h : r.Mirrors r') (d : Direction)
include h

theorem plans_eq (c : Category) : r.plans s d c = r'.plans s d.reversed c := by
  have hdiffering := filter_forall₂ (h.items c) fun _ _ hij => hij.differs_eq
  have houtcomes := map_eq_of_forall₂ hdiffering fun _ _ hij =>
    congrArg Except.toOption (hij.plan_eq (s := s) d)
  -- The plans are what is left of the outcomes without the faults.
  have hplans := congrArg (List.filterMap id) houtcomes
  rw [List.filterMap_map, List.filterMap_map] at hplans
  rw [Comparison.plans_eq, Comparison.plans_eq]
  exact hplans

theorem gather_eq (part : Plan → List String) (c : Category) :
    r.gather s d part c = r'.gather s d.reversed part c := by
  unfold gather
  rw [h.plans_eq d c]

theorem droppedTables_eq : r.droppedTables d = r'.droppedTables d.reversed := by
  have hgone := filter_forall₂ (h.items .table) fun _ _ hij =>
    congrArg (· == DiffState.deleted) (hij.stateFor_eq d)
  exact map_eq_of_forall₂ hgone fun _ _ hij => hij.key

theorem danglingDrops_eq : r.danglingDrops s d = r'.danglingDrops s d.reversed := by
  have hstaying := filter_forall₂ (h.items .table) fun _ _ hij =>
    congrArg (· != DiffState.deleted) (hij.stateFor_eq d)
  unfold danglingDrops
  rw [h.droppedTables_eq d, List.flatMap_def, List.flatMap_def]
  refine congrArg List.flatten (map_eq_of_forall₂ hstaying fun i j hij => ?_)
  rw [hij.current_eq d]

/-- The scripts of mirrored comparisons in opposite directions say the same. -/
theorem statements_eq : r.statements s d = r'.statements s d.reversed := by
  unfold statements phases foreignKeyDrops
  simp only [h.gather_eq d, h.danglingDrops_eq d]

end Mirrors

end Comparison

/-! ## The two comparisons of two models -/

namespace Category

/-- What has to hold of an object for its differences to be read from either side. -/
def Distinct : (c : Category) → c.Object → Prop
  | .table, t => t.DistinctNames
  | .sequence, _ => True
  | .view, _ => True
  | .function, _ => True
  | .procedure, _ => True

variable {c : Category} {x y : c.Object}

theorem equal_comm (o : Options) (hx : c.Distinct x) (hy : c.Distinct y) :
    c.equal o x y = c.equal o y x := by
  cases c with
  | sequence => exact sequencesEqual_comm x y
  | table => exact (TableDiff.between_mirrors o hy hx).isUnchanged_eq
  | view => exact viewsEqual_comm x y
  | function => exact routinesEqual_comm x y
  | procedure => exact routinesEqual_comm x y

theorem detailBetween_mirrors (o : Options) (hx : c.Distinct x) (hy : c.Distinct y) :
    c.DetailMirrors (c.detailBetween o y x) (c.detailBetween o x y) := by
  cases c with
  | table => exact TableDiff.between_mirrors o hx hy
  | _ => trivial

theorem emptyDetail_mirrors : c.DetailMirrors c.emptyDetail c.emptyDetail := by
  cases c with
  | table => exact TableDiff.mirrors_empty
  | _ => trivial

end Category

/-- An item with its sides exchanged mirrors the item. -/
theorem Item.ofSides_mirrors {c : Category} (o : Options) (key : Key)
    {source target : Option c.Object} (hsource : ∀ x, source = some x → c.Distinct x)
    (htarget : ∀ x, target = some x → c.Distinct x) :
    (ofSides o key target source).Mirrors (ofSides o key source target) := by
  refine ⟨rfl, ?_, rfl, rfl, ?_⟩
  · exact DiffState.classify_comm fun x y hx hy =>
      Category.equal_comm o (hsource x hx) (htarget y hy)
  · cases source with
    | none => cases target <;> exact Category.emptyDetail_mirrors
    | some x =>
        cases target with
        | none => exact Category.emptyDetail_mirrors
        | some y => exact Category.detailBetween_mirrors o (hsource x rfl) (htarget y rfl)

/-- The tables of the model have distinct names of columns, indexes and foreign keys. -/
def Model.DistinctNames (m : Model) : Prop :=
  ∀ t ∈ m.tables.values, t.DistinctNames

instance (m : Model) : Decidable m.DistinctNames := by
  unfold Model.DistinctNames
  infer_instance

theorem Model.DistinctNames.find? {m : Model} (h : m.DistinctNames) {c : Category}
    {key : Key} {x : c.Object} (hx : (m.objects c).find? key = some x) : c.Distinct x := by
  cases c with
  | table => exact h x (List.mem_map_of_mem (f := Prod.snd) (Keyed.mem_of_find? hx))
  | _ => trivial

namespace Comparison

variable {a b : Model}

theorem items_between (o : Options) (a b : Model) (c : Category) :
    (between o a b).items c = itemsBetween o c (a.objects c) (b.objects c) := by
  cases c <;> rfl

/-- Exchanging two models exchanges the sides of every item. -/
theorem between_mirrors (o : Options) (ha : a.Ordered) (hb : b.Ordered)
    (hna : a.DistinctNames) (hnb : b.DistinctNames) (hdialect : a.dialect = b.dialect) :
    (between o b a).Mirrors (between o a b) := by
  refine ⟨hdialect.symm, rfl, fun c => ?_⟩
  rw [items_between, items_between]
  unfold itemsBetween
  rw [Keyed.unionKeys_comm (hb c) (ha c), List.forall₂_map_left_iff,
    List.forall₂_map_right_iff, List.forall₂_same]
  intro key _
  exact Item.ofSides_mirrors o key (fun x hx => hna.find? hx) fun x hx => hnb.find? hx

/-- Exchanging two models mirrors their comparison, and a consolidated script in one
direction is, to the letter, that of the exchanged comparison in the other. -/
theorem swap_duality (o : Options) (ha : a.Ordered) (hb : b.Ordered)
    (hna : a.DistinctNames) (hnb : b.DistinctNames) (hdialect : a.dialect = b.dialect) :
    (between o b a).Mirrors (between o a b)
    ∧ ∀ (s : Spelling) (d : Direction),
        (between o a b).consolidated s d.reversed = (between o b a).consolidated s d := by
  have hmirrors := between_mirrors o ha hb hna hnb hdialect
  refine ⟨hmirrors, fun s d => ?_⟩
  unfold consolidated
  rw [hmirrors.statements_eq d]

/-- A shop in which orders point at customers. -/
def shop : Model :=
  { dialect := .mySql
    database := "shop"
    tables :=
      [(⟨"shop", "customers"⟩,
        { schema := "shop", name := "customers"
          columns := [{ name := "id", dataType := "int" }] }),
       (⟨"shop", "orders"⟩,
        { schema := "shop", name := "orders"
          columns := [{ name := "id", dataType := "int" },
            { name := "customer", dataType := "int" }]
          foreignKeys :=
            [{ name := "by", referencedSchema := "shop", referencedTable := "customers" }] })]
    views := [(⟨"shop", "open"⟩, { schema := "shop", name := "open", definition := "SELECT 1" })] }

/-- The shop without customers, its orders with other columns and without a key. -/
def anonymousShop : Model :=
  { dialect := .mySql
    database := "shop"
    tables :=
      [(⟨"shop", "orders"⟩,
        { schema := "shop", name := "orders"
          columns := [{ name := "total", dataType := "int" },
            { name := "id", dataType := "bigint" }] })]
    views := [(⟨"shop", "open"⟩, { schema := "shop", name := "open", definition := "SELECT 2" })] }

/-- Removing the customers and bringing them back are each other's mirror image. -/
theorem swap_duality_shop :
    shop.Ordered ∧ anonymousShop.Ordered ∧ shop.DistinctNames
    ∧ anonymousShop.DistinctNames ∧ shop.dialect = anonymousShop.dialect
    ∧ (between {} anonymousShop shop).Mirrors (between {} shop anonymousShop)
    ∧ ∀ (s : Spelling) (d : Direction),
        (between {} shop anonymousShop).consolidated s d.reversed
          = (between {} anonymousShop shop).consolidated s d := by
  have hshop : shop.Ordered := by decide
  have hanonymous : anonymousShop.Ordered := by decide
  have hnames : shop.DistinctNames := by decide
  have hnames' : anonymousShop.DistinctNames := by decide
  exact ⟨hshop, hanonymous, hnames, hnames', rfl,
    swap_duality {} hshop hanonymous hnames hnames' rfl⟩

end Comparison

end Reconcile
