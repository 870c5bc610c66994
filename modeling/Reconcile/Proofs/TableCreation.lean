import Reconcile.Proofs.ByteOrder
import Reconcile.Proofs.Plans
import Reconcile.Proofs.StableOrder

/-!
# Plans that create tables

A new table takes all its members along (`Table.CreatedBy`).  Its columns and its primary key
are clauses of one statement, comments on columns follow where they are statements of their
own, and every other index and every foreign key has a statement by itself.  The clauses keep
the order of the table or go by the bytes of the names (`Table.Listing`); in the second case it
does not matter in which order the table holds its columns, as long as no two share a name.
-/

namespace Reconcile

/-! ## The order of the columns -/

/-- Orders in which a new table lists its columns. -/
structure Table.Listing (o : Options) (t : Table) (order : List Column) : Prop where
  perm : order.Perm t.columns
  asStored : o.orderColumnsAlphabetically = false → order = t.columns
  byName : o.orderColumnsAlphabetically = true →
    StablyOrdered (fun c => Text.bytes c.name) t.columns order

section Order

variable {o : Options} {t : Table}

theorem creationOrder_of_stored (ho : o.orderColumnsAlphabetically = false) :
    creationOrder o t = t.columns := by
  simp [creationOrder, ho]

theorem creationOrder_of_named (ho : o.orderColumnsAlphabetically = true) :
    StablyOrdered (fun c => Text.bytes c.name) t.columns (creationOrder o t) := by
  unfold creationOrder
  rw [if_pos ho]
  apply stablyOrdered_mergeSort
  intro a b
  rw [Text.bytes_strictMono.le_iff_le, Bool.not_eq_true', decide_eq_false_iff_not, not_lt]

theorem listing_creationOrder : t.Listing o (creationOrder o t) := by
  refine ⟨?perm, creationOrder_of_stored, creationOrder_of_named⟩
  cases ho : o.orderColumnsAlphabetically with
  | true => exact (creationOrder_of_named ho).perm
  | false => rw [creationOrder_of_stored ho]

/-- By name, columns of distinct names have one order however the table holds them. -/
theorem creationOrder_perm (ho : o.orderColumnsAlphabetically = true)
    (hnames : (t.columns.map Column.name).Nodup) {columns : List Column}
    (hcolumns : columns.Perm t.columns) :
    creationOrder o { t with columns } = creationOrder o t := by
  apply (creationOrder_of_named ho).eq_of_perm (creationOrder_of_named ho) hcolumns
  have hmap : t.columns.map (fun c => Text.bytes c.name)
      = (t.columns.map Column.name).map Text.bytes := by
    rw [List.map_map]
    rfl
  rw [hmap]
  exact hnames.map Text.bytes_strictMono.injective

end Order

/-! ## The statements -/

namespace Spelling

variable (s : Spelling)

/-- A primary key as a clause of its table, which has no name of its own on MySQL. -/
def keyClause (i : Index) : String :=
  match s.dialect with
  | .sqlServer =>
      s!"CONSTRAINT {s.quote i.name} PRIMARY KEY {SqlServer.clustering i} ({s.indexColumns i})"
  | .mySql => s!"PRIMARY KEY ({s.indexColumns i})"
  | .postgreSql => s!"CONSTRAINT {s.quote i.name} PRIMARY KEY ({s.indexColumns i})"

/-- What stands after the clauses, which are the options that MySQL tables have. -/
def afterClauses (t : Table) : String :=
  match s.dialect with
  | .mySql =>
      let options := MySql.tableOptions s.options t
      if options.isEmpty then "" else " " ++ options
  | .sqlServer | .postgreSql => ""

/-- The comments on the columns of a new table, which only PostgreSQL has as statements. -/
def commentStatements (t : Table) (order : List Column) : List String :=
  match s.dialect with
  | .postgreSql =>
      (order.filter (·.comment.isSome)).map fun c =>
        PostgreSql.columnComment s.options t c.name c.comment
  | .sqlServer | .mySql => []

def clauses (order : List Column) (keys : List Index) : List String :=
  order.map s.columnDefinition ++ keys.map s.keyClause

/-- The creation of a table from its clauses, and its comments. -/
def creation (t : Table) (order : List Column) (keys : List Index) : List String :=
  s!"CREATE TABLE {s.tableName t} {definitionList (s.clauses order keys)}{s.afterClauses t}"
    :: s.commentStatements t order

theorem creation_of_afterClauses_empty {s : Spelling} {t : Table} {order : List Column}
    {keys : List Index} (h : s.afterClauses t = "") :
    s.creation t order keys
      = s!"CREATE TABLE {s.tableName t} {definitionList (s.clauses order keys)}"
        :: s.commentStatements t order := by
  unfold creation
  rw [h]
  simp only [toString, String.append_empty]

end Spelling

/-- A plan that creates a table with all its members, each of them once. -/
structure Table.CreatedBy (s : Spelling) (t : Table) (p : Plan) : Prop where
  /-- Columns and primary keys are clauses, commented columns have a comment each. -/
  creates : ∃ order, t.Listing s.options order
    ∧ p.creates = s.creation t order (t.indexes.filter (·.kind == .primaryKey))
  /-- Every other index is created by a statement. -/
  createIndexes : List.Forall₂ (fun i text => s.createIndex t i = .ok text)
    (t.indexes.filter (·.kind != .primaryKey)) p.createIndexes
  createForeignKeys : List.Forall₂ (fun fk text => s.createForeignKey t fk = .ok text)
    t.foreignKeys p.createForeignKeys
  dropForeignKeys : p.dropForeignKeys = []
  dropIndexes : p.dropIndexes = []
  drops : p.drops = []

/-! ## Creation -/

/-- The table has one primary key or none. -/
def Table.KeyedOnce (t : Table) : Prop :=
  (t.indexes.filter (·.kind == .primaryKey)).length ≤ 1

variable {d : Dialect} {o : Options} {t : Table}

instance : Decidable t.KeyedOnce :=
  inferInstanceAs (Decidable (_ ≤ 1))

theorem Table.KeyedOnce.toList_primaryKey? (h : t.KeyedOnce) :
    t.primaryKey?.toList = t.indexes.filter (·.kind == .primaryKey) := by
  unfold KeyedOnce at h
  unfold primaryKey?
  rw [← List.head?_filter]
  generalize t.indexes.filter (·.kind == .primaryKey) = keys at h ⊢
  rcases keys with _ | ⟨pk, rest⟩
  · rfl
  · rw [List.length_cons] at h
    obtain rfl : rest = [] := List.length_eq_zero_iff.mp (by omega)
    rfl

theorem Spelling.createTable_eq {creates : List String}
    (h : (Spelling.of d o).createTable t = .ok creates) :
    creates
      = (Spelling.of d o).creation t (Reconcile.creationOrder o t) t.primaryKey?.toList := by
  cases d with
  | sqlServer =>
      cases h
      rw [creation_of_afterClauses_empty rfl]
      rfl
  | mySql =>
      change MySql.createTable o t = .ok creates at h
      unfold MySql.createTable at h
      split at h
      · cases h
      · cases h
        rfl
  | postgreSql =>
      cases h
      rw [creation_of_afterClauses_empty rfl]
      rfl

/-- A table is created in the same way wherever its columns stand, but for the order of its
clauses. -/
theorem Spelling.createTable_perm {columns : List Column} (hcolumns : columns.Perm t.columns)
    (horder : Reconcile.creationOrder o { t with columns } = Reconcile.creationOrder o t) :
    (Spelling.of d o).createTable { t with columns } = (Spelling.of d o).createTable t := by
  cases d with
  | sqlServer =>
      show Except.ok (SqlServer.createTable o _) = .ok (SqlServer.createTable o t)
      unfold SqlServer.createTable
      rw [horder]
      rfl
  | mySql =>
      show MySql.createTable o _ = MySql.createTable o t
      unfold MySql.createTable
      rw [horder, hcolumns.isEmpty_eq]
      rfl
  | postgreSql =>
      show Except.ok (PostgreSql.createTable o _) = .ok (PostgreSql.createTable o t)
      unfold PostgreSql.createTable
      rw [horder]
      rfl

/-- The statements of indexes and of foreign keys do not depend on the table's columns. -/
theorem Spelling.createIndex_columns (columns : List Column) :
    (Spelling.of d o).createIndex { t with columns } = (Spelling.of d o).createIndex t := by
  cases d <;> rfl

theorem Spelling.createForeignKey_columns (columns : List Column) :
    (Spelling.of d o).createForeignKey { t with columns }
      = (Spelling.of d o).createForeignKey t := by
  cases d <;> rfl

theorem Table.createdBy_of_planCreate {p : Plan} (hkeys : t.KeyedOnce)
    (h : t.planCreate (Spelling.of d o) = .ok p) : t.CreatedBy (Spelling.of d o) p := by
  obtain ⟨creates, createIndexes, createForeignKeys, hcreates, hindexes, hforeign, rfl⟩ :=
    Table.planCreate_eq_ok.mp h
  have hoptions : (Spelling.of d o).options = o := by
    cases d <;> rfl
  refine ⟨⟨creationOrder o t, ?listing, ?creates⟩, mapM_eq_ok.mp hindexes,
    mapM_eq_ok.mp hforeign, rfl, rfl, rfl⟩
  case listing =>
      rw [hoptions]
      exact listing_creationOrder
  case creates =>
      rw [← hkeys.toList_primaryKey?]
      exact Spelling.createTable_eq hcreates

theorem Table.planCreate_perm (ho : o.orderColumnsAlphabetically = true)
    (hnames : (t.columns.map Column.name).Nodup) {columns : List Column}
    (hcolumns : columns.Perm t.columns) :
    ({ t with columns } : Table).planCreate (Spelling.of d o)
      = t.planCreate (Spelling.of d o) := by
  have horder := creationOrder_perm ho hnames hcolumns
  unfold planCreate
  rw [Spelling.createTable_perm hcolumns horder, Spelling.createIndex_columns,
    Spelling.createForeignKey_columns]

/-- A plan that creates a table lists every member once, and where columns go by distinct
names it is the same however the table holds them. -/
theorem Table.planCreate_complete (d : Dialect) (o : Options) (t : Table) :
    (∀ p, t.KeyedOnce → t.planCreate (Spelling.of d o) = .ok p →
      t.CreatedBy (Spelling.of d o) p)
    ∧ (o.orderColumnsAlphabetically = true → (t.columns.map Column.name).Nodup →
      ∀ columns : List Column, columns.Perm t.columns →
        ({ t with columns } : Table).planCreate (Spelling.of d o)
          = t.planCreate (Spelling.of d o)) := by
  constructor
  · intro p hkeys h
    exact createdBy_of_planCreate hkeys h
  · intro ho hnames columns hcolumns
    exact planCreate_perm ho hnames hcolumns

/-- Invoices with a key, an index, a comment and a customer. -/
def invoices : Table :=
  { schema := "shop", name := "invoices"
    columns := [{ name := "total", dataType := "integer", comment := some "in cents" },
      { name := "id", dataType := "integer" }]
    indexes := [{ name := "amount", kind := .index }, { name := "number", kind := .primaryKey }]
    foreignKeys := [{ name := "by", referencedSchema := "shop",
                      referencedTable := "customers" }] }

/-- The columns come by name, whichever of them was read first. -/
theorem Table.planCreate_complete_invoices :
    ∃ p, invoices.planCreate (Spelling.of .postgreSql { orderColumnsAlphabetically := true })
        = .ok p
      ∧ invoices.CreatedBy (Spelling.of .postgreSql { orderColumnsAlphabetically := true }) p
      ∧ ({ invoices with columns := invoices.columns.reverse } : Table).planCreate
          (Spelling.of .postgreSql { orderColumnsAlphabetically := true }) = .ok p := by
  have hcomplete := Table.planCreate_complete .postgreSql { orderColumnsAlphabetically := true }
    invoices
  refine ⟨_, rfl, hcomplete.1 _ (by decide) rfl, ?_⟩
  rw [hcomplete.2 rfl (by decide) _ (List.reverse_perm _)]
  rfl

end Reconcile
