import Reconcile.Proofs.Essentials

/-!
# What never influences a run

Two kinds of detail have no influence.  With collations ignored it does not matter which
collations and character sets the models have (`collations_ignored`), and it never
matters how the models are stored: which positions the columns have, which version the
tables' format has and in which order the columns of an index or a foreign key are kept
(`storage_unseen`).  Either time the models have the same essentials, so that no run
tells them apart.

The columns of an index have to have distinct numbers: columns of one number are read in
the order in which they are stored.
-/

namespace Reconcile

open Redaction (essentials)

/-! ## Collations -/

/-- A column without what says how its text is encoded and ordered. -/
def Column.uncollated (c : Column) : Column :=
  { c with collation := none, characterSet := none }

def TableExtension.uncollated : TableExtension → TableExtension
  | .none => .none
  | .mySql engine version _ _ => .mySql engine version "" ""

def Table.uncollated (t : Table) : Table :=
  { t with columns := t.columns.map Column.uncollated, extension := t.extension.uncollated }

/-- A model without collations and character sets: two models have the same just if they
are identical except for those. -/
def Model.uncollated (m : Model) : Model :=
  { m with tables := m.tables.map fun entry => (entry.1, entry.2.uncollated) }

namespace Redaction

theorem essentials_table_uncollated (t : Table) :
    (essentials true).table t.uncollated = (essentials true).table t := by
  have hcolumns : (t.columns.map Column.uncollated).map (essentials true).column
      = t.columns.map (essentials true).column := by
    rw [List.map_map]
    rfl
  have hextension : (essentials true).extension t.extension.uncollated
      = (essentials true).extension t.extension := by
    cases t.extension <;> rfl
  unfold Redaction.table Table.uncollated
  simp only [hcolumns, hextension]

theorem essentials_uncollated (m : Model) :
    (essentials true).model m.uncollated = (essentials true).model m := by
  have htables : (m.tables.map fun entry => (entry.1, entry.2.uncollated)).map
      (fun entry => (entry.1, (essentials true).table entry.2))
      = m.tables.map fun entry => (entry.1, (essentials true).table entry.2) := by
    rw [List.map_map]
    exact List.map_congr_left fun entry _ =>
      congrArg (Prod.mk entry.1) (essentials_table_uncollated entry.2)
  exact congrArg (fun tables => { m with tables := tables }) htables

end Redaction

/-- With collations ignored, models that are identical except for collations and character
sets are indistinguishable, whatever engine's scripts are written. -/
theorem collations_ignored (e : Dialect) {o o' : Options} {a b a' b' : Model}
    (ho : o.ignoreCollate = true) (ho' : o'.ignoreCollate = true)
    (ha : a.uncollated = a'.uncollated) (hb : b.uncollated = b'.uncollated) :
    Indistinguishable o (Spelling.of e o') a b a' b' := by
  have hsame : ∀ {m m' : Model}, m.uncollated = m'.uncollated →
      (essentials true).model m = (essentials true).model m' := by
    intro m m' hm
    rw [← Redaction.essentials_uncollated, hm, Redaction.essentials_uncollated]
  exact Redaction.indistinguishable (Redaction.essentials_unseen fun _ => ho)
    (Redaction.essentials_unwritten e fun _ => ho') (hsame ha) (hsame hb)

/-- A shop with one table of customers, whose names are in `collation`. -/
def collatedShop (characterSet collation : String) : Model :=
  { dialect := .mySql
    database := "shop"
    tables :=
      [(⟨"shop", "customers"⟩,
        { schema := "shop", name := "customers"
          columns := [{ name := "id", dataType := "int" },
            { name := "name", dataType := "varchar(40)", collation := some collation
              characterSet := some characterSet }]
          extension := .mySql "InnoDB" 10 characterSet collation })] }

/-- A shop that changes over to another character set does not differ from one that
changes back. -/
theorem collations_ignored_shop :
    let latin := collatedShop "latin1" "latin1_bin"
    let unicode := collatedShop "utf8mb4" "utf8mb4_bin"
    latin.uncollated = unicode.uncollated
    ∧ Indistinguishable { ignoreCollate := true }
        (Spelling.of .mySql { ignoreCollate := true }) latin unicode unicode latin := by
  have hsame : (collatedShop "latin1" "latin1_bin").uncollated
      = (collatedShop "utf8mb4" "utf8mb4_bin").uncollated := rfl
  exact ⟨hsame, collations_ignored .mySql rfl rfl hsame hsame.symm⟩

/-! ## Storage -/

/-- Two columns that differ in their positions alone. -/
def Column.SameButPosition (c c' : Column) : Prop :=
  { c with ordinalPosition := c'.ordinalPosition } = c'

/-- Two indexes that differ in the order alone in which their columns, of distinct numbers,
are stored. -/
structure Index.SameButOrder (i i' : Index) : Prop where
  columns : i.columns.Perm i'.columns
  ordinals : (i.columns.map IndexColumn.ordinal).Nodup
  beside : { i with columns := i'.columns } = i'

/-- Two foreign keys that differ in the order alone in which their column pairs, of
distinct numbers, are stored. -/
structure ForeignKey.SameButOrder (fk fk' : ForeignKey) : Prop where
  columns : fk.columns.Perm fk'.columns
  ordinals : (fk.columns.map ForeignKeyColumn.ordinal).Nodup
  beside : { fk with columns := fk'.columns } = fk'

/-- The same extension of possibly another version. -/
def TableExtension.SameButVersion : TableExtension → TableExtension → Prop
  | .mySql engine _ characterSet collation, .mySql engine' _ characterSet' collation' =>
      engine = engine' ∧ characterSet = characterSet' ∧ collation = collation'
  | x, y => x = y

structure Table.SameButStorage (t t' : Table) : Prop where
  schema : t.schema = t'.schema
  name : t.name = t'.name
  columns : List.Forall₂ Column.SameButPosition t.columns t'.columns
  indexes : List.Forall₂ Index.SameButOrder t.indexes t'.indexes
  foreignKeys : List.Forall₂ ForeignKey.SameButOrder t.foreignKeys t'.foreignKeys
  extension : t.extension.SameButVersion t'.extension

/-- Two models that differ in nothing but how their tables are stored. -/
structure Model.SameButStorage (m m' : Model) : Prop where
  tables : List.Forall₂
    (fun entry entry' => entry.1 = entry'.1 ∧ entry.2.SameButStorage entry'.2)
    m.tables m'.tables
  beside : { m with tables := m'.tables } = m'

namespace Redaction

theorem column_of_position {c c' : Column} (h : c.SameButPosition c') :
    (essentials false).column c = (essentials false).column c' := by
  have hc : { c with ordinalPosition := c'.ordinalPosition } = c' := h
  rw [← hc]
  rfl

theorem index_of_order {i i' : Index} (h : i.SameButOrder i') :
    (essentials false).index i = (essentials false).index i' := by
  have hcolumns : i.orderedColumns = i'.orderedColumns :=
    sortedByOrdinal_of_perm h.columns h.ordinals
  change { i with columns := i.orderedColumns } = { i' with columns := i'.orderedColumns }
  rw [hcolumns, ← h.beside]

theorem foreignKey_of_order {fk fk' : ForeignKey} (h : fk.SameButOrder fk') :
    (essentials false).foreignKey fk = (essentials false).foreignKey fk' := by
  have hcolumns : fk.orderedColumns = fk'.orderedColumns :=
    sortedByOrdinal_of_perm h.columns h.ordinals
  change { fk with columns := fk.orderedColumns } = { fk' with columns := fk'.orderedColumns }
  rw [hcolumns, ← h.beside]

theorem extension_of_version {x x' : TableExtension} (h : x.SameButVersion x') :
    (essentials false).extension x = (essentials false).extension x' := by
  cases x with
  | none =>
      cases x' with
      | none => rfl
      | mySql => cases h
  | mySql engine version characterSet collation =>
      cases x' with
      | none => cases h
      | mySql engine' version' characterSet' collation' =>
          obtain ⟨rfl, rfl, rfl⟩ := h
          rfl

theorem table_of_storage {t t' : Table} (h : t.SameButStorage t') :
    (essentials false).table t = (essentials false).table t' := by
  have hcolumns := Comparison.map_eq_of_forall₂ h.columns fun _ _ => column_of_position
  have hindexes := Comparison.map_eq_of_forall₂ h.indexes fun _ _ => index_of_order
  have hforeignKeys :=
    Comparison.map_eq_of_forall₂ h.foreignKeys fun _ _ => foreignKey_of_order
  have hextension := extension_of_version h.extension
  unfold Redaction.table
  rw [hcolumns, hindexes, hforeignKeys, hextension]
  obtain ⟨hschema, hname, -, -, -, -⟩ := h
  cases t
  cases t'
  cases hschema
  cases hname
  rfl

theorem model_of_storage {m m' : Model} (h : m.SameButStorage m') :
    (essentials false).model m = (essentials false).model m' := by
  have htables : (essentials false).objects .table m.tables
      = (essentials false).objects .table m'.tables := by
    refine Comparison.map_eq_of_forall₂ h.tables ?_
    rintro ⟨key, t⟩ ⟨key', t'⟩ ⟨hkey, htable⟩
    exact congrArg₂ Prod.mk hkey (table_of_storage htable)
  unfold Redaction.model
  rw [htables, ← h.beside]

end Redaction

/-- Models that differ in nothing but how their tables are stored are
indistinguishable, whatever the options and whatever engine's scripts are written. -/
theorem storage_unseen (e : Dialect) (o o' : Options) {a b a' b' : Model}
    (ha : a.SameButStorage a') (hb : b.SameButStorage b') :
    Indistinguishable o (Spelling.of e o') a b a' b' := by
  have hunseen : (essentials false).Unseen o := Redaction.essentials_unseen nofun
  have hunwritten : (essentials false).Unwritten (Spelling.of e o') :=
    Redaction.essentials_unwritten e nofun
  exact Redaction.indistinguishable hunseen hunwritten (Redaction.model_of_storage ha)
    (Redaction.model_of_storage hb)

/-- A shop with one table of orders, its primary key over two columns stored in the order
of `columns`. -/
def storedShop (position : UInt32) (version : Int64) (columns : List IndexColumn) : Model :=
  { dialect := .mySql
    database := "shop"
    tables :=
      [(⟨"shop", "orders"⟩,
        { schema := "shop", name := "orders"
          columns := [{ name := "customer", dataType := "int", ordinalPosition := position },
            { name := "day", dataType := "date" }]
          indexes := [{ name := "PRIMARY", kind := .primaryKey, columns := columns }]
          extension := .mySql "InnoDB" version "utf8mb4" "utf8mb4_bin" })] }

theorem storedShop_sameButStorage (position position' : UInt32) (version version' : Int64)
    {columns columns' : List IndexColumn} (hperm : columns.Perm columns')
    (hordinals : (columns.map IndexColumn.ordinal).Nodup) :
    (storedShop position version columns).SameButStorage
      (storedShop position' version' columns') := by
  have htable : ∀ t t' : Table, t.SameButStorage t' →
      List.Forall₂ (fun entry entry' : Key × Table =>
        entry.1 = entry'.1 ∧ entry.2.SameButStorage entry'.2)
        [(⟨"shop", "orders"⟩, t)] [(⟨"shop", "orders"⟩, t')] :=
    fun _ _ h => .cons ⟨rfl, h⟩ .nil
  refine ⟨htable _ _ ⟨rfl, rfl, ?columns, ?indexes, .nil, ?extension⟩, rfl⟩
  case columns => exact .cons rfl (.cons rfl .nil)
  case indexes => exact .cons ⟨hperm, hordinals, rfl⟩ .nil
  case extension => exact ⟨rfl, rfl, rfl⟩

/-- Shops that store the columns of a key the other way round are indistinguishable. -/
theorem storage_unseen_shop :
    let forwards := storedShop 1 10 [⟨"customer", 1, false, none⟩, ⟨"day", 2, false, none⟩]
    let backwards := storedShop 2 11 [⟨"day", 2, false, none⟩, ⟨"customer", 1, false, none⟩]
    forwards.SameButStorage backwards ∧ backwards.SameButStorage forwards
    ∧ Indistinguishable {} (Spelling.of .mySql {}) forwards backwards backwards forwards := by
  intro forwards backwards
  have hthere : forwards.SameButStorage backwards :=
    storedShop_sameButStorage 1 2 10 11 (.swap _ _ _) (by decide)
  have hback : backwards.SameButStorage forwards :=
    storedShop_sameButStorage 2 1 11 10 (.swap _ _ _) (by decide)
  exact ⟨hthere, hback, storage_unseen .mySql {} {} hthere hback⟩

end Reconcile
