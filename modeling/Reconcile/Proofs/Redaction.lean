import Reconcile.Proofs.Mirror
import Reconcile.Proofs.Runs

/-!
# Redacted models

A redaction replaces what the parts of a table say and keeps what they are known by: the
names of columns, indexes and foreign keys, the kind of an index and the table that a
foreign key points at.  If no equality sees the difference (`Unseen`), then comparing two
redacted models is redacting the comparison of the two (`comparison_between`): the same
keys, the same pairs of members, the same states.

What a comparison says beside the objects themselves is its outline
(`Comparison.outline`), in which no redaction shows.  So two pairs of models that a
redaction makes the same have comparisons of one outline.
-/

namespace Reconcile

/-- A way to replace the parts of tables that keeps what they are known by. -/
structure Redaction where
  column : Column → Column
  index : Index → Index
  foreignKey : ForeignKey → ForeignKey
  extension : TableExtension → TableExtension
  column_name : ∀ c, (column c).name = c.name
  index_name : ∀ i, (index i).name = i.name
  index_kind : ∀ i, (index i).kind = i.kind
  foreignKey_name : ∀ fk, (foreignKey fk).name = fk.name
  foreignKey_referencedKey : ∀ fk, (foreignKey fk).referencedKey = fk.referencedKey

/-! ## Outlines -/

/-- What a difference inside a table says without the members themselves: their names and
states, and whether anything beside them changed. -/
structure TableDiff.Outline where
  columns : List (String × DiffState) := []
  indexes : List (String × DiffState) := []
  foreignKeys : List (String × DiffState) := []
  optionsChanged : Bool := false
deriving DecidableEq, Repr

/-- What an item says without its objects. -/
structure Item.Outline where
  key : Key
  state : DiffState
  hasSource : Bool
  hasTarget : Bool
  detail : TableDiff.Outline
  sourceCreate : String
  targetCreate : String
  alter : String
  fault : Option String
deriving DecidableEq, Repr

/-- What a comparison says without the objects it compares. -/
structure Comparison.Outline where
  dialect : Dialect
  options : Options
  items : Category → List Item.Outline
  forward : Option String
  backward : Option String

def MemberDiff.outline {α : Type} (m : MemberDiff α) : String × DiffState :=
  (m.name, m.state)

def TableDiff.outline (d : TableDiff) : TableDiff.Outline :=
  { columns := d.columns.map MemberDiff.outline
    indexes := d.indexes.map MemberDiff.outline
    foreignKeys := d.foreignKeys.map MemberDiff.outline
    optionsChanged := d.optionsChanged }

def Category.outline : (c : Category) → c.Detail → TableDiff.Outline
  | .table, d => d.outline
  | .sequence, _ => {}
  | .view, _ => {}
  | .function, _ => {}
  | .procedure, _ => {}

def Item.outline {c : Category} (i : Item c) : Item.Outline :=
  { key := i.key
    state := i.state
    hasSource := i.source.isSome
    hasTarget := i.target.isSome
    detail := c.outline i.detail
    sourceCreate := i.sourceCreate
    targetCreate := i.targetCreate
    alter := i.alter
    fault := i.fault }

def Comparison.outline (r : Comparison) : Comparison.Outline :=
  { dialect := r.dialect
    options := r.options
    items := fun c => (r.items c).map Item.outline
    forward := r.forward
    backward := r.backward }

/-! ## Members by name -/

/-- The state of two sides that were replaced behind the back of the equality. -/
theorem DiffState.classify_map {α : Type} {f : α → α} {equal : α → α → Bool}
    (hequal : ∀ x y, equal (f x) (f y) = equal x y) (a b : Option α) :
    classify equal (a.map f) (b.map f) = classify equal a b := by
  cases a with
  | none => cases b <;> rfl
  | some x =>
      cases b with
      | none => rfl
      | some y =>
          simp only [Option.map_some, classify]
          rw [hequal]

namespace MemberDiff

/-- A difference of members that were replaced. -/
def redacted {α : Type} (f : α → α) (m : MemberDiff α) : MemberDiff α :=
  { m with source := m.source.map f, target := m.target.map f }

section Replacing

variable {α : Type} {f : α → α} {nameOf : α → String} {equal : α → α → Bool}
  (hname : ∀ x, nameOf (f x) = nameOf x)
include hname

theorem lastNamed_map (name : String) (xs : List α) :
    lastNamed nameOf name (xs.map f) = (lastNamed nameOf name xs).map f := by
  unfold lastNamed
  rw [← List.map_reverse, List.find?_map]
  have hsame : ((fun x => nameOf x == name) ∘ f) = fun x => nameOf x == name := by
    funext x
    exact congrArg (· == name) (hname x)
  rw [hsame]

theorem ofSource_map (hequal : ∀ x y, equal (f x) (f y) = equal x y) (target : List α)
    (x : α) : ofSource nameOf equal (target.map f) (f x)
      = redacted f (ofSource nameOf equal target x) := by
  let other := lastNamed nameOf (nameOf x) target
  have hother : lastNamed nameOf (nameOf (f x)) (target.map f) = other.map f := by
    rw [hname, lastNamed_map hname]
  have hstate : DiffState.classify equal (some (f x)) (other.map f)
      = DiffState.classify equal (some x) other :=
    DiffState.classify_map hequal (some x) other
  unfold ofSource
  dsimp only
  rw [hother, hstate, hname]
  rfl

theorem ofTarget_map (y : α) : ofTarget nameOf (f y) = redacted f (ofTarget nameOf y) := by
  unfold ofTarget
  rw [hname]
  rfl

/-- Replacing members that keep their names replaces them in their differences. -/
theorem between_map (hequal : ∀ x y, equal (f x) (f y) = equal x y)
    (source target : List α) :
    between nameOf equal (source.map f) (target.map f)
      = (between nameOf equal source target).map (redacted f) := by
  have hlacking : ((fun y => !(source.map f).any (nameOf · == nameOf y)) ∘ f)
      = fun y => !source.any (nameOf · == nameOf y) := by
    funext y
    simp [List.any_map, Function.comp_def, hname]
  unfold between
  rw [List.filter_map, hlacking]
  simp only [List.map_append, List.map_map]
  exact congrArg₂ (· ++ ·) (List.map_congr_left fun x _ => ofSource_map hname hequal target x)
    (List.map_congr_left fun y _ => ofTarget_map hname y)

end Replacing

variable {α : Type} {f : α → α}

theorem all_unchanged_redacted (ms : List (MemberDiff α)) :
    (ms.map (redacted f)).all (·.state == .unchanged) = ms.all (·.state == .unchanged) := by
  rw [List.all_map]
  rfl

theorem map_outline_redacted (f : α → α) (ms : List (MemberDiff α)) :
    (ms.map (redacted f)).map outline = ms.map outline := by
  rw [List.map_map]
  rfl

end MemberDiff

namespace Keyed

variable {α β : Type}

/-- What is found was replaced in its place. -/
theorem find?_map (f : α → β) (m : Keyed α) (k : Key) :
    find? k (m.map fun entry => (entry.1, f entry.2)) = (m.find? k).map f := by
  induction m with
  | nil => rfl
  | cons entry rest ih =>
      rw [List.map_cons, find?, find?, ih]
      split
      · rfl
      · rfl

theorem keys_map (f : α → β) (m : Keyed α) :
    keys (m.map fun entry => (entry.1, f entry.2)) = m.keys := by
  unfold keys
  rw [List.map_map]
  rfl

end Keyed

/-- A comparison is known by its items and by what it says beside them. -/
theorem Comparison.eq_of_items {r r' : Comparison} (hdialect : r.dialect = r'.dialect)
    (hoptions : r.options = r'.options) (hitems : ∀ c, r.items c = r'.items c)
    (hforward : r.forward = r'.forward) (hbackward : r.backward = r'.backward) :
    r = r' := by
  have hsequences := hitems .sequence
  have htables := hitems .table
  have hviews := hitems .view
  have hfunctions := hitems .function
  have hprocedures := hitems .procedure
  cases r
  cases r'
  simp only [items] at *
  simp only [*]

/-! ## Runs -/

namespace Tracked

variable {α β : Type} {f : β → β} {tr : Tracker}

/-- If the rest of a piece of work answers otherwise, the whole of it does. -/
theorem on_bind_map {x : Tracked α} {y z : α → Tracked β}
    (h : ∀ a tr, (y a).on tr = Prod.map (Except.map f) id ((z a).on tr)) (tr : Tracker) :
    (x >>= y).on tr = Prod.map (Except.map f) id ((x >>= z).on tr) := by
  rw [on_bind, on_bind]
  cases (x.on tr).1 with
  | error e => rfl
  | ok a => exact h a (x.on tr).2

/-- The answer of a piece of work does not show in how its task ends. -/
theorem on_settling_map {task : Address} {y z : Tracked β}
    (h : y.on tr = Prod.map (Except.map f) id (z.on tr)) :
    (settling task y).on tr = Prod.map (Except.map f) id ((settling task z).on tr) := by
  have hrun : ∀ work : Tracked β, (settling task work).on tr
      = ((work.on tr).1, (work.on tr).2.attempt task (ending (work.on tr).1)) :=
    fun _ => rfl
  rw [hrun, hrun, h]
  cases houtcome : (z.on tr).1 <;> simp [Prod.map, Except.map, houtcome, ending]

end Tracked

/-! ## Redacting -/

namespace Redaction

variable (ρ : Redaction) {c : Category}

def table (t : Table) : Table :=
  { t with
    columns := t.columns.map ρ.column
    indexes := t.indexes.map ρ.index
    foreignKeys := t.foreignKeys.map ρ.foreignKey
    extension := ρ.extension t.extension }

def object : (c : Category) → c.Object → c.Object
  | .table, t => ρ.table t
  | .sequence, q => q
  | .view, v => v
  | .function, r => r
  | .procedure, r => r

def objects (c : Category) (m : Keyed c.Object) : Keyed c.Object :=
  m.map fun entry => (entry.1, ρ.object c entry.2)

def model (m : Model) : Model :=
  { m with tables := ρ.objects .table m.tables }

def diff (d : TableDiff) : TableDiff :=
  { d with
    columns := d.columns.map (MemberDiff.redacted ρ.column)
    indexes := d.indexes.map (MemberDiff.redacted ρ.index)
    foreignKeys := d.foreignKeys.map (MemberDiff.redacted ρ.foreignKey) }

def detail : (c : Category) → c.Detail → c.Detail
  | .table, d => ρ.diff d
  | .sequence, _ => ()
  | .view, _ => ()
  | .function, _ => ()
  | .procedure, _ => ()

def item (c : Category) (i : Item c) : Item c :=
  { i with
    source := i.source.map (ρ.object c)
    target := i.target.map (ρ.object c)
    detail := ρ.detail c i.detail }

def comparison (r : Comparison) : Comparison :=
  r.mapItems ρ.item

/-- No equality under the options sees what was replaced. -/
structure Unseen (o : Options) : Prop where
  columns : ∀ a b, columnsEqual o (ρ.column a) (ρ.column b) = columnsEqual o a b
  indexes : ∀ a b, indexesEqual (ρ.index a) (ρ.index b) = indexesEqual a b
  foreignKeys : ∀ a b,
    foreignKeysEqual o (ρ.foreignKey a) (ρ.foreignKey b) = foreignKeysEqual o a b
  extensions : ∀ a b,
    extensionsEqual o (ρ.extension a) (ρ.extension b) = extensionsEqual o a b

theorem objects_model (m : Model) (c : Category) :
    (ρ.model m).objects c = ρ.objects c (m.objects c) := by
  cases c with
  | table => rfl
  | _ => exact (List.map_id _).symm

theorem items_comparison (r : Comparison) (c : Category) :
    (ρ.comparison r).items c = (r.items c).map (ρ.item c) := by
  cases c <;> rfl

theorem isUnchanged_diff (d : TableDiff) : (ρ.diff d).isUnchanged = d.isUnchanged := by
  unfold TableDiff.isUnchanged diff
  simp only [MemberDiff.all_unchanged_redacted]

theorem outline_detail (d : c.Detail) : c.outline (ρ.detail c d) = c.outline d := by
  cases c with
  | table =>
      change (ρ.diff d).outline = TableDiff.outline d
      unfold TableDiff.outline diff
      simp only [MemberDiff.map_outline_redacted]
  | _ => rfl

theorem outline_item (i : Item c) : (ρ.item c i).outline = i.outline := by
  have hsource : (ρ.item c i).source.isSome = i.source.isSome := Option.isSome_map
  have htarget : (ρ.item c i).target.isSome = i.target.isSome := Option.isSome_map
  have hdetail : c.outline (ρ.item c i).detail = c.outline i.detail :=
    ρ.outline_detail i.detail
  unfold Item.outline
  rw [hsource, htarget, hdetail]
  rfl

/-- No redaction shows in an outline. -/
theorem outline_comparison (r : Comparison) : (ρ.comparison r).outline = r.outline := by
  have hitems : ∀ c, ((ρ.comparison r).items c).map Item.outline
      = (r.items c).map Item.outline := by
    intro c
    rw [items_comparison, List.map_map]
    exact List.map_congr_left fun i _ => ρ.outline_item i
  unfold Comparison.outline
  simp only [hitems]
  rfl

section Comparing

variable {ρ} {o : Options} (h : ρ.Unseen o)
include h

theorem diff_between (a b : Table) :
    TableDiff.between o (ρ.table a) (ρ.table b) = ρ.diff (TableDiff.between o a b) := by
  have hcolumns := MemberDiff.between_map ρ.column_name h.columns a.columns b.columns
  have hindexes := MemberDiff.between_map ρ.index_name h.indexes a.indexes b.indexes
  have hforeignKeys :=
    MemberDiff.between_map ρ.foreignKey_name h.foreignKeys a.foreignKeys b.foreignKeys
  have hextensions := h.extensions a.extension b.extension
  unfold TableDiff.between diff
  congr 1
  exact congrArg (!·) hextensions

theorem equal_object (x y : c.Object) :
    c.equal o (ρ.object c x) (ρ.object c y) = c.equal o x y := by
  cases c with
  | table =>
      change (TableDiff.between o (ρ.table x) (ρ.table y)).isUnchanged = _
      rw [diff_between h, isUnchanged_diff]
      rfl
  | _ => rfl

theorem detail_between (x y : c.Object) :
    c.detailBetween o (ρ.object c x) (ρ.object c y)
      = ρ.detail c (c.detailBetween o x y) := by
  cases c with
  | table => exact diff_between h x y
  | _ => rfl

theorem item_ofSides (key : Key) (source target : Option c.Object) :
    Item.ofSides o key (source.map (ρ.object c)) (target.map (ρ.object c))
      = ρ.item c (Item.ofSides o key source target) := by
  have hstate := DiffState.classify_map (equal_object h) source target
  have hempty : ρ.detail c c.emptyDetail = c.emptyDetail := by
    cases c <;> rfl
  cases source with
  | none =>
      cases target with
      | none => simp [Item.ofSides, item, DiffState.classify, hempty]
      | some y => simp [Item.ofSides, item, DiffState.classify, hempty]
  | some x =>
      cases target with
      | none => simp [Item.ofSides, item, DiffState.classify, hempty]
      | some y =>
          simp [Item.ofSides, item, DiffState.classify, equal_object h, detail_between h]

theorem items_between (source target : Keyed c.Object) :
    itemsBetween o c (ρ.objects c source) (ρ.objects c target)
      = (itemsBetween o c source target).map (ρ.item c) := by
  unfold itemsBetween objects Keyed.unionKeys
  rw [Keyed.keys_map, Keyed.keys_map, List.map_map]
  refine List.map_congr_left fun k _ => ?_
  rw [Keyed.find?_map, Keyed.find?_map]
  exact item_ofSides h k (source.find? k) (target.find? k)

/-- Comparing redacted models is redacting their comparison. -/
theorem comparison_between (a b : Model) :
    Comparison.between o (ρ.model a) (ρ.model b) = ρ.comparison (.between o a b) := by
  refine Comparison.eq_of_items rfl rfl (fun c => ?_) rfl rfl
  rw [items_comparison, Comparison.items_between, Comparison.items_between, objects_model,
    objects_model]
  exact items_between h (a.objects c) (b.objects c)

theorem compare_run (a b : Model) (task : Address) (polls : Polls) (tr : Tracker) :
    (compare o (ρ.model a) (ρ.model b) task polls).on tr
      = Prod.map (Except.map ρ.comparison) id ((compare o a b task polls).on tr) := by
  have hkeys : ∀ c, ((ρ.model a).objects c).unionKeys ((ρ.model b).objects c)
      = (a.objects c).unionKeys (b.objects c) := by
    intro c
    rw [objects_model, objects_model]
    unfold objects Keyed.unionKeys
    rw [Keyed.keys_map, Keyed.keys_map]
  have hdialect : ∀ m, (ρ.model m).dialect = m.dialect := fun _ => rfl
  unfold compare
  simp only [hkeys, hdialect]
  split
  · rfl
  · refine Tracked.on_bind_map (fun _ tr => ?_) tr
    refine Tracked.on_settling_map ?_
    refine Tracked.on_bind_map (fun tasks tr => ?_) tr
    refine Tracked.on_bind_map (fun _ tr => ?_) tr
    rw [comparison_between h]
    rfl

end Comparing

end Redaction

end Reconcile
