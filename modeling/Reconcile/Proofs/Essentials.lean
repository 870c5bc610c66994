import Reconcile.Proofs.Indistinguishable
import Reconcile.Proofs.StableOrder

/-!
# What is read of a table

Positions of columns and versions of stored formats are never read, and the columns of an
index or a foreign key are read by their numbers, in whatever order they are stored.
Where collations are ignored, neither they nor character sets are read.  What is left are
the essentials: `Redaction.essentials` replaces a table by them, and neither the
equalities (`essentials_unseen`) nor any of the three engines' statements
(`essentials_unwritten`) depend on more.
-/

namespace Reconcile

/-! ## Essentials -/

namespace Column

/-- A column without its position, and without collation where those are ignored. -/
def essential (ignoring : Bool) (c : Column) : Column :=
  { c with
    ordinalPosition := 0
    collation := if ignoring then none else c.collation
    characterSet := if ignoring then none else c.characterSet }

end Column

namespace Index

/-- An index with its columns by their numbers. -/
def essential (i : Index) : Index :=
  { i with columns := i.orderedColumns }

theorem orderedColumns_essential (i : Index) :
    i.essential.orderedColumns = i.orderedColumns :=
  sortedByOrdinal_idem IndexColumn.ordinal i.columns

end Index

namespace ForeignKey

/-- A foreign key with its column pairs by their numbers. -/
def essential (fk : ForeignKey) : ForeignKey :=
  { fk with columns := fk.orderedColumns }

theorem orderedColumns_essential (fk : ForeignKey) :
    fk.essential.orderedColumns = fk.orderedColumns :=
  sortedByOrdinal_idem ForeignKeyColumn.ordinal fk.columns

end ForeignKey

/-- An extension without its version, and without character set and collation where those
are ignored. -/
def TableExtension.essential (ignoring : Bool) : TableExtension → TableExtension
  | .none => .none
  | .mySql engine _ characterSet collation =>
      .mySql engine 0 (if ignoring then "" else characterSet)
        (if ignoring then "" else collation)

namespace Redaction

/-- Replaces a table by its essentials. -/
def essentials (ignoring : Bool) : Redaction :=
  { column := Column.essential ignoring
    index := Index.essential
    foreignKey := ForeignKey.essential
    extension := TableExtension.essential ignoring
    column_name := fun _ => rfl
    index_name := fun _ => rfl
    index_kind := fun _ => rfl
    foreignKey_name := fun _ => rfl
    foreignKey_referencedKey := fun _ => rfl }

variable {ignoring : Bool} {o : Options}

/-- The equalities depend on the essentials alone. -/
theorem essentials_unseen (h : ignoring = true → o.ignoreCollate = true) :
    (essentials ignoring).Unseen o := by
  refine ⟨?columns, ?indexes, ?foreignKeys, ?extensions⟩
  case columns =>
      intro a b
      cases ignoring with
      | false => rfl
      | true =>
          unfold columnsEqual
          rw [h rfl]
          rfl
  case indexes =>
      intro a b
      change indexesEqual a.essential b.essential = _
      unfold indexesEqual Index.shape
      rw [a.orderedColumns_essential, b.orderedColumns_essential]
      rfl
  case foreignKeys =>
      intro a b
      change foreignKeysEqual o a.essential b.essential = _
      unfold foreignKeysEqual ForeignKey.pairs
      rw [a.orderedColumns_essential, b.orderedColumns_essential]
      rfl
  case extensions =>
      intro a b
      change extensionsEqual o (a.essential ignoring) (b.essential ignoring) = _
      cases a with
      | none => cases b <;> rfl
      | mySql engine version characterSet collation =>
          cases b with
          | none => rfl
          | mySql engine' version' characterSet' collation' =>
              cases ignoring with
              | false => rfl
              | true =>
                  simp only [TableExtension.essential, extensionsEqual, h]
                  rfl

end Redaction

/-! ## What all engines share -/

namespace Redaction

variable (ρ : Redaction)

/-- A new table lists the same columns in the same order. -/
theorem creationOrder_table (o : Options) (t : Table) :
    creationOrder o (ρ.table t) = (creationOrder o t).map ρ.column := by
  unfold creationOrder
  split
  · refine (List.map_mergeSort fun a _ b _ => ?_).symm
    rw [ρ.column_name, ρ.column_name]
  · rfl

theorem map_creationOrder (o : Options) (t : Table) {f : Column → String}
    (hf : ∀ c, f (ρ.column c) = f c) :
    (creationOrder o (ρ.table t)).map f = (creationOrder o t).map f := by
  rw [creationOrder_table, List.map_map]
  exact List.map_congr_left fun c _ => hf c

theorem map_primaryKey? (t : Table) {f : Index → String} (hf : ∀ i, f (ρ.index i) = f i) :
    (ρ.table t).primaryKey?.toList.map f = t.primaryKey?.toList.map f := by
  have hkind : ((fun i : Index => i.kind == .primaryKey) ∘ ρ.index)
      = fun i => i.kind == .primaryKey := by
    funext i
    exact congrArg (· == IndexKind.primaryKey) (ρ.index_kind i)
  have hkey : (ρ.table t).primaryKey? = t.primaryKey?.map ρ.index := by
    change (t.indexes.map ρ.index).find? _ = _
    rw [List.find?_map, hkind]
    rfl
  rw [hkey]
  cases t.primaryKey? with
  | none => rfl
  | some pk => exact congrArg ([·]) (hf pk)

end Redaction

theorem Index.indexColumns_essential (d : Dialect) (suffix : IndexColumn → String)
    (i : Index) : d.indexColumns suffix i.essential = d.indexColumns suffix i := by
  unfold Dialect.indexColumns
  rw [i.orderedColumns_essential]

theorem Column.scriptedCollation_essential {ignoring : Bool} {o : Options}
    (h : ignoring = true → o.ignoreCollate = true) (c : Column) :
    (c.essential ignoring).scriptedCollation o = c.scriptedCollation o := by
  unfold scriptedCollation
  cases ignoring with
  | false => rfl
  | true =>
      rw [h rfl]
      rfl

/-- A spelling whose clauses do not go by the columns of a foreign key creates it by its
column pairs in the order of their numbers. -/
theorem Spelling.createForeignKey_essential (s : Spelling)
    (hactions : ∀ fk, s.referentialActions fk.essential = s.referentialActions fk)
    (t : Table) (fk : ForeignKey) :
    s.createForeignKey t fk.essential = s.createForeignKey t fk := by
  unfold createForeignKey
  rw [fk.orderedColumns_essential, hactions]
  rfl

/-! ## PostgreSQL -/

namespace PostgreSql

open Redaction (essentials)

theorem createIndex_essential (o : Options) (t : Table) (i : Index) :
    createIndex o t i.essential = createIndex o t i := by
  unfold createIndex indexColumns
  rw [i.indexColumns_essential]
  rfl

variable {ignoring : Bool} {o : Options} (h : ignoring = true → o.ignoreCollate = true)
include h

theorem columnDefinition_essential (c : Column) :
    columnDefinition o (c.essential ignoring) = columnDefinition o c := by
  unfold columnDefinition
  rw [c.scriptedCollation_essential h]
  rfl

theorem columnChanges_essential (desired current : Column) :
    columnChanges o (desired.essential ignoring) (current.essential ignoring)
      = columnChanges o desired current := by
  unfold columnChanges
  rw [desired.scriptedCollation_essential h, current.scriptedCollation_essential h]
  rfl

theorem createTable_essentials (t : Table) :
    createTable o ((essentials ignoring).table t) = createTable o t := by
  have hcolumns := (essentials ignoring).map_creationOrder o t (columnDefinition_essential h)
  have hkey := (essentials ignoring).map_primaryKey? t (f := fun pk =>
      s!"CONSTRAINT {Dialect.postgreSql.quote pk.name} PRIMARY KEY ({indexColumns pk})")
    fun pk => congrArg (fun columns =>
      s!"CONSTRAINT {Dialect.postgreSql.quote pk.name} PRIMARY KEY ({columns})")
      (pk.indexColumns_essential _ _)
  have hcomments : ((creationOrder o ((essentials ignoring).table t)).filter
        (·.comment.isSome)).map
          (fun c => columnComment o ((essentials ignoring).table t) c.name c.comment)
      = ((creationOrder o t).filter (·.comment.isSome)).map
          fun c => columnComment o t c.name c.comment := by
    rw [Redaction.creationOrder_table, List.filter_map, List.map_map]
    rfl
  unfold createTable
  dsimp only
  rw [hcolumns, hkey, hcomments]
  rfl

theorem essentials_unwritten : (essentials ignoring).Unwritten (spelling o) := by
  refine ⟨Redaction.essentials_unseen h, ?createTable, ?addColumn, fun _ _ => rfl,
    ?alterColumn, fun _ _ => rfl, ?createIndex, fun _ _ => rfl, ?createForeignKey,
    fun _ _ => rfl⟩
  case createTable => exact fun t => congrArg Except.ok (createTable_essentials h t)
  case addColumn =>
      intro t c
      change addColumn o _ (c.essential ignoring) = addColumn o t c
      unfold addColumn
      rw [columnDefinition_essential h]
      rfl
  case alterColumn =>
      intro t c c'
      have hchanges := columnChanges_essential h c c'
      exact congrArg (fun changes => Except.ok
        (changes.map (ColumnChange.statement o t c.name))) hchanges
  case createIndex => exact fun t i => createIndex_essential o t i
  case createForeignKey =>
      intro t fk
      exact Spelling.createForeignKey_essential (spelling o) (fun _ => rfl) t fk

end PostgreSql

/-! ## MySQL -/

namespace MySql

open Redaction (essentials)

theorem createIndex_essential (o : Options) (t : Table) (i : Index) :
    createIndex o t i.essential = createIndex o t i := by
  unfold createIndex indexColumns
  rw [i.indexColumns_essential]
  rfl

variable {ignoring : Bool} {o : Options} (h : ignoring = true → o.ignoreCollate = true)
include h

theorem columnDefinition_essential (c : Column) :
    columnDefinition o (c.essential ignoring) = columnDefinition o c := by
  cases ignoring with
  | false => rfl
  | true =>
      unfold columnDefinition
      rw [h rfl]
      rfl

theorem tableOptions_essentials (t : Table) :
    tableOptions o ((essentials ignoring).table t) = tableOptions o t := by
  change (match t.extension.essential ignoring with
    | .none => ""
    | .mySql engine _ characterSet collation =>
        Text.joined " "
          (option "ENGINE" engine
            ++ if o.ignoreCollate then []
              else option "DEFAULT CHARSET" characterSet ++ option "COLLATE" collation)) = _
  unfold tableOptions
  cases t.extension with
  | none => rfl
  | mySql engine version characterSet collation =>
      cases ignoring with
      | false => rfl
      | true =>
          rw [h rfl]
          rfl

theorem createTable_essentials (t : Table) :
    createTable o ((essentials ignoring).table t) = createTable o t := by
  have hempty : ((essentials ignoring).table t).columns.isEmpty = t.columns.isEmpty :=
    List.isEmpty_map
  have hcolumns := (essentials ignoring).map_creationOrder o t (columnDefinition_essential h)
  have hkey := (essentials ignoring).map_primaryKey? t
    (f := fun pk => s!"PRIMARY KEY ({indexColumns pk})")
    fun pk => congrArg (fun columns => s!"PRIMARY KEY ({columns})")
      (pk.indexColumns_essential _ _)
  unfold createTable
  dsimp only
  rw [hempty, hcolumns, hkey, tableOptions_essentials h]
  rfl

theorem essentials_unwritten : (essentials ignoring).Unwritten (spelling o) := by
  refine ⟨Redaction.essentials_unseen h, createTable_essentials h, ?addColumn,
    fun _ _ => rfl, ?alterColumn, ?alterTableOptions, ?createIndex, fun _ _ => rfl,
    ?createForeignKey, fun _ _ => rfl⟩
  case addColumn =>
      intro t c
      change addColumn o _ (c.essential ignoring) = addColumn o t c
      unfold addColumn
      rw [columnDefinition_essential h]
      rfl
  case alterColumn =>
      intro t c c'
      change alterColumn o _ (c.essential ignoring) (c'.essential ignoring)
        = alterColumn o t c c'
      unfold alterColumn
      rw [columnDefinition_essential h]
      rfl
  case alterTableOptions =>
      intro t t'
      change alterTableOptions o _ ((essentials ignoring).table t')
        = alterTableOptions o t t'
      unfold alterTableOptions
      rw [tableOptions_essentials h]
      rfl
  case createIndex => exact fun t i => congrArg Except.ok (createIndex_essential o t i)
  case createForeignKey =>
      intro t fk
      exact Spelling.createForeignKey_essential (spelling o) (fun _ => rfl) t fk

end MySql

/-! ## SQL Server -/

namespace SqlServer

open Redaction (essentials)

theorem createIndex_essential (o : Options) (t : Table) (i : Index) :
    createIndex o t i.essential = createIndex o t i := by
  unfold createIndex indexColumns
  rw [i.indexColumns_essential]
  rfl

variable {ignoring : Bool} {o : Options} (h : ignoring = true → o.ignoreCollate = true)
include h

theorem columnDefinition_essential (c : Column) :
    columnDefinition o (c.essential ignoring) = columnDefinition o c := by
  unfold columnDefinition
  rw [c.scriptedCollation_essential h]
  rfl

theorem columnShape_essential (c : Column) :
    columnShape o (c.essential ignoring) = columnShape o c := by
  unfold columnShape
  rw [c.scriptedCollation_essential h]
  rfl

theorem columnChanges_essential (t : Table) (desired current : Column) :
    columnChanges o t (desired.essential ignoring) (current.essential ignoring)
      = columnChanges o t desired current := by
  unfold columnChanges
  rw [columnShape_essential h, columnShape_essential h,
    desired.scriptedCollation_essential h]
  rfl

theorem createTable_essentials (t : Table) :
    createTable o ((essentials ignoring).table t) = createTable o t := by
  have hcolumns := (essentials ignoring).map_creationOrder o t (columnDefinition_essential h)
  have hkey := (essentials ignoring).map_primaryKey? t (f := fun pk =>
      s!"CONSTRAINT {Dialect.sqlServer.quote pk.name} PRIMARY KEY {clustering pk} ({indexColumns pk})")
    fun pk => congrArg (fun columns =>
      s!"CONSTRAINT {Dialect.sqlServer.quote pk.name} PRIMARY KEY {clustering pk} ({columns})")
      (pk.indexColumns_essential _ _)
  unfold createTable
  dsimp only
  rw [hcolumns, hkey]
  rfl

theorem essentials_unwritten : (essentials ignoring).Unwritten (spelling o) := by
  refine ⟨Redaction.essentials_unseen h, ?createTable, ?addColumn, fun _ _ => rfl,
    ?alterColumn, fun _ _ => rfl, ?createIndex, fun _ _ => rfl, ?createForeignKey,
    fun _ _ => rfl⟩
  case createTable => exact fun t => congrArg Except.ok (createTable_essentials h t)
  case addColumn =>
      intro t c
      change addColumn o _ (c.essential ignoring) = addColumn o t c
      unfold addColumn
      rw [columnDefinition_essential h]
      rfl
  case alterColumn =>
      intro t c c'
      change alterColumn o t (c.essential ignoring) (c'.essential ignoring)
        = alterColumn o t c c'
      unfold alterColumn
      rw [columnChanges_essential h]
      rfl
  case createIndex => exact fun t i => createIndex_essential o t i
  case createForeignKey =>
      intro t fk
      exact Spelling.createForeignKey_essential (spelling o) (fun _ => rfl) t fk

end SqlServer

/-- The statements of every engine depend on the essentials alone. -/
theorem Redaction.essentials_unwritten {ignoring : Bool} {o : Options} (e : Dialect)
    (h : ignoring = true → o.ignoreCollate = true) :
    (essentials ignoring).Unwritten (Spelling.of e o) := by
  cases e with
  | sqlServer => exact SqlServer.essentials_unwritten h
  | mySql => exact MySql.essentials_unwritten h
  | postgreSql => exact PostgreSql.essentials_unwritten h

end Reconcile
