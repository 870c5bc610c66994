import Reconcile.Proofs.RowGroups
import Reconcile.Proofs.Runs

/-!
# Tables filled from rows

MySQL and PostgreSQL read the indexes and the foreign keys of a table from rows.  Each of the
four ways is the same going through rows (`indexFolding_steps`, `foreignKeyFolding_steps`) with
what the engine's rows say put in.  The objects are made apart from the table and added when all
of them are made, so a table either gets all of what its rows come to or stays as it is
(`rows_fill_tables`).
-/

namespace Reconcile

/-! ## Work on a table -/

namespace Filling

variable {γ : Type} {make : Table → Except CrawlFault (List γ)} {add : Table → γ → Table}
  {t : Table}

theorem on_get (t : Table) : (get : Filling Table).on t = (.ok t, t) :=
  rfl

theorem on_adding_ok {objects : List γ} (h : make t = .ok objects) :
    (adding make add).on t = (.ok (), objects.foldl add t) := by
  unfold adding on
  rw [run_bind_eq (on_get t)]
  simp only [h]
  rfl

theorem on_adding_error {cause : CrawlFault} (h : make t = .error cause) :
    (adding make add).on t = (.error (.crawl cause), t) := by
  unfold adding on
  rw [run_bind_eq (on_get t)]
  simp only [h]
  rfl

end Filling

namespace Table

def withIndexes (t : Table) (indexes : List Index) : Table :=
  { t with indexes := t.indexes ++ indexes }

def withForeignKeys (t : Table) (keys : List ForeignKey) : Table :=
  { t with foreignKeys := t.foreignKeys ++ keys }

theorem foldl_addIndex (t : Table) (indexes : List Index) :
    indexes.foldl addIndex t = t.withIndexes indexes := by
  induction indexes generalizing t with
  | nil => simp [withIndexes]
  | cons i indexes ih => simp [ih, addIndex, withIndexes]

theorem foldl_addForeignKey (t : Table) (keys : List ForeignKey) :
    keys.foldl addForeignKey t = t.withForeignKeys keys := by
  induction keys generalizing t with
  | nil => simp [withForeignKeys]
  | cons fk keys ih => simp [ih, addForeignKey, withForeignKeys]

end Table

namespace Folding

variable {ρ γ κ : Type} {F : Folding ρ γ κ} {rows : List ρ}

/-- What comes of filling a table from rows.  `grown` is the table with objects at the end of
its list. -/
structure Fills (F : Folding ρ γ κ) (rows : List ρ) (work : Filling Unit) (t : Table)
    (grown : List γ → Table) : Prop where
  /-- One row of which nothing can be made keeps all of them from the table, and nothing else
  does. -/
  fails : (∃ cause, work.on t = (.error (.crawl cause), t)) ↔ ∃ r ∈ rows, F.refused r
  appends : (∀ r ∈ rows, ¬ F.refused r) → ∃ objects, work.on t = (.ok (), grown objects)
    ∧ F.Gathered rows objects ∧ F.Accounts rows objects

theorem Comes.fills {make : Table → Except CrawlFault (List γ)} {add : Table → γ → Table}
    {t : Table} {grown : List γ → Table} (h : F.Comes rows (make t))
    (hgrown : ∀ objects, objects.foldl add t = grown objects) :
    F.Fills rows (Filling.adding make add) t grown := by
  constructor
  case fails =>
    constructor
    · rintro ⟨cause, hfault⟩
      by_contra hrefused
      obtain ⟨objects, hobjects, -⟩ :=
        h.succeeds fun r hr hrow => hrefused ⟨r, hr, hrow⟩
      rw [Filling.on_adding_ok hobjects] at hfault
      cases hfault
    · intro hrefused
      obtain ⟨cause, hcause⟩ := h.fails hrefused
      exact ⟨cause, Filling.on_adding_error hcause⟩
  case appends =>
    intro hnone
    obtain ⟨objects, hobjects, hgathered⟩ := h.succeeds hnone
    refine ⟨objects, ?_, hgathered, hgathered.accounts⟩
    rw [Filling.on_adding_ok hobjects, hgrown]

end Folding

/-! ## Numbers of the catalog -/

/-- A number that the model has room for. -/
def InRange (n : Int64) : Prop :=
  0 ≤ n.toInt ∧ n.toInt < UInt32.size

theorem narrowed_of_inRange {n : Int64} (h : InRange n) :
    ∃ m, narrowed n = .ok m ∧ (m.toNat : Int) = n.toInt := by
  obtain ⟨hlow, hhigh⟩ := h
  have hsmall : ¬ n < 0 := by
    rw [Int64.lt_iff_toInt_lt]
    exact Int.not_lt.mpr hlow
  refine ⟨UInt32.ofNat n.toInt.toNat, ?_, ?_⟩
  · rw [narrowed, if_neg hsmall, if_neg (Int.not_le.mpr hhigh)]
  · have hfits : n.toInt.toNat < UInt32.size := by omega
    rw [UInt32.toNat_ofNat_of_lt' hfits]
    exact Int.toNat_of_nonneg hlow

theorem narrowed_of_not_inRange {n : Int64} (h : ¬ InRange n) :
    ∃ cause, narrowed n = .error cause := by
  by_cases hsmall : n < 0
  · exact ⟨_, if_pos hsmall⟩
  · have hlow : 0 ≤ n.toInt := by
      rw [Int64.lt_iff_toInt_lt] at hsmall
      exact Int.not_lt.mp hsmall
    have hlarge : (UInt32.size : Int) ≤ n.toInt :=
      Int.not_lt.mp fun hhigh => h ⟨hlow, hhigh⟩
    exact ⟨_, by rw [narrowed, if_neg hsmall, if_pos hlarge]⟩

/-! ## Indexes -/

section Indexes

variable {ρ : Type} {name : ρ → String} {kind : ρ → IndexKind} {extension : ρ → IndexExtension}
  {gives : ρ → IndexColumn → Prop} {refused : ρ → Prop}

/-- Rows of indexes, with what an engine's rows say of an index, of its column and of nothing. -/
def indexFolding (name : ρ → String) (kind : ρ → IndexKind) (extension : ρ → IndexExtension)
    (gives : ρ → IndexColumn → Prop) (refused : ρ → Prop) : Folding ρ Index IndexColumn where
  rowName := name
  objectName := Index.name
  entries := Index.columns
  heads r i := i.kind = kind r ∧ i.extension = extension r
  gives := gives
  refused := refused

theorem indexFolding_steps {column : ρ → Except CrawlFault IndexColumn}
    (hstops : ∀ r, refused r → ∃ cause, column r = .error cause)
    (hreads : ∀ r, ¬ refused r → ∃ c, column r = .ok c ∧ gives r c) :
    (indexFolding name kind extension gives refused).Steps fun indexes r => do
      let c ← column r
      return addToGroup Index.name (name r)
        { name := name r, kind := kind r, extension := extension r }
        (fun i => { i with columns := i.columns ++ [c] }) indexes := by
  constructor
  case stops =>
    intro r indexes hrefused
    exact bind_fails (hstops r hrefused)
  case enters =>
    intro r indexes hnot
    obtain ⟨c, hc, hgives⟩ := hreads r hnot
    refine ⟨{ name := name r, kind := kind r, extension := extension r },
      fun i => { i with columns := i.columns ++ [c] }, ?_, ?_⟩
    · exact
        { name_start := rfl
          heads_start := ⟨rfl, rfl⟩
          entries_start := rfl
          name_add := fun _ => rfl
          heads_add := fun _ _ h => h
          entries_add := ⟨c, hgives, fun _ => rfl⟩ }
    · rw [hc]
      rfl

end Indexes

namespace MySql

/-- Nothing can be made of the row: it has no column name, or a number out of range. -/
def IndexRow.Refused (r : IndexRow) : Prop :=
  r.columnName = none ∨ ¬ InRange r.seqInIndex ∨ ∃ length ∈ r.subPart, ¬ InRange length

/-- The column is as the row says. -/
structure IndexRow.Gives (r : IndexRow) (c : IndexColumn) : Prop where
  name : r.columnName = some c.name
  ordinal : (c.ordinal.toNat : Int) = r.seqInIndex.toInt
  descending : c.descending = true ↔ r.collation = some "D"
  prefixLength : c.prefixLength.map (fun n => (n.toNat : Int)) = r.subPart.map Int64.toInt

def indexRows : Folding IndexRow Index IndexColumn :=
  indexFolding IndexRow.indexName (fun r => indexKind r.indexName r.nonUnique r.indexType)
    (fun r => .mySql r.indexType) IndexRow.Gives IndexRow.Refused

variable {table : String} {r : IndexRow}

theorem IndexRow.column_of_refused (h : r.Refused) :
    ∃ cause, r.column table = .error cause := by
  unfold column
  rcases h with hname | hordinal | ⟨length, hlength, hout⟩
  · apply bind_fails
    rw [hname]
    exact ⟨_, rfl⟩
  · apply bind_fails_after
    intro name
    exact bind_fails (narrowed_of_not_inRange hordinal)
  · apply bind_fails_after
    intro name
    apply bind_fails_after
    intro ordinal
    apply bind_fails
    rw [Option.mem_def.mp hlength]
    exact bind_fails (narrowed_of_not_inRange hout)

theorem IndexRow.column_of_not_refused (h : ¬ r.Refused) :
    ∃ c, r.column table = .ok c ∧ r.Gives c := by
  obtain ⟨hname, hordinal, hlengths⟩ : r.columnName ≠ none ∧ InRange r.seqInIndex
      ∧ ∀ length ∈ r.subPart, InRange length := by
    simpa [Refused] using h
  obtain ⟨name, hname⟩ := Option.ne_none_iff_exists'.mp hname
  obtain ⟨ordinal, hnarrowed, hordinal⟩ := narrowed_of_inRange hordinal
  have hprefix : ∃ prefixLength, r.subPart.mapM narrowed = .ok prefixLength
      ∧ prefixLength.map (fun n => (n.toNat : Int)) = r.subPart.map Int64.toInt := by
    cases hpart : r.subPart with
    | none => exact ⟨none, rfl, rfl⟩
    | some length =>
        obtain ⟨n, hn, heq⟩ := narrowed_of_inRange (hlengths length hpart)
        refine ⟨some n, ?_, congrArg some heq⟩
        show some <$> narrowed length = _
        rw [hn]
        rfl
  obtain ⟨prefixLength, hmapM, hprefix⟩ := hprefix
  refine ⟨{ name, ordinal, descending := r.collation == some "D", prefixLength }, ?_, ?_⟩
  · rw [column, hname, hnarrowed, hmapM]
    rfl
  · exact
      { name := hname
        ordinal := hordinal
        descending := beq_iff_eq
        prefixLength := hprefix }

theorem indexesOf_comes (table : String) (rows : List IndexRow) :
    indexRows.Comes rows (indexesOf table rows) :=
  (indexFolding_steps (fun _ => IndexRow.column_of_refused)
    (fun _ => IndexRow.column_of_not_refused)).comes rows

end MySql

namespace PostgreSql

/-- Nothing can be made of the row: it has no column name, or a number out of range. -/
def IndexRow.Refused (r : IndexRow) : Prop :=
  r.columnName = none ∨ ¬ InRange r.ordinal

/-- The column is as the row says. -/
structure IndexRow.Gives (r : IndexRow) (c : IndexColumn) : Prop where
  name : r.columnName = some c.name
  ordinal : (c.ordinal.toNat : Int) = r.ordinal.toInt
  descending : c.descending = r.descending
  prefixLength : c.prefixLength = none

def indexRows : Folding IndexRow Index IndexColumn :=
  indexFolding IndexRow.indexName IndexRow.kind (fun r => .postgreSql r.method r.predicate)
    IndexRow.Gives IndexRow.Refused

variable {table : Key} {r : IndexRow}

theorem IndexRow.column_of_refused (h : r.Refused) :
    ∃ cause, r.column table = .error cause := by
  unfold column
  rcases h with hname | hordinal
  · apply bind_fails
    rw [hname]
    exact ⟨_, rfl⟩
  · apply bind_fails_after
    intro name
    exact bind_fails (narrowed_of_not_inRange hordinal)

theorem IndexRow.column_of_not_refused (h : ¬ r.Refused) :
    ∃ c, r.column table = .ok c ∧ r.Gives c := by
  obtain ⟨hname, hordinal⟩ : r.columnName ≠ none ∧ InRange r.ordinal := by
    simpa [Refused] using h
  obtain ⟨name, hname⟩ := Option.ne_none_iff_exists'.mp hname
  obtain ⟨ordinal, hnarrowed, hordinal⟩ := narrowed_of_inRange hordinal
  refine ⟨{ name, ordinal, descending := r.descending }, ?_, ?_⟩
  · rw [column, hname, hnarrowed]
    rfl
  · exact
      { name := hname
        ordinal := hordinal
        descending := rfl
        prefixLength := rfl }

theorem indexesOf_comes (table : Key) (rows : List IndexRow) :
    indexRows.Comes rows (indexesOf table rows) :=
  (indexFolding_steps (fun _ => IndexRow.column_of_refused)
    (fun _ => IndexRow.column_of_not_refused)).comes rows

end PostgreSql

/-! ## Foreign keys -/

/-- A row of a foreign key, whatever the engine. -/
structure KeyRow where
  name : String
  ordinal : Int64
  column : String
  referencedColumn : String
  referencedSchema : String
  referencedTable : String
  updateRule : String
  deleteRule : String

/-- Nothing can be made of the row: an action is unknown, or its number is out of range. -/
def KeyRow.Refused (r : KeyRow) : Prop :=
  ReferentialAction.parse? r.updateRule = none ∨ ReferentialAction.parse? r.deleteRule = none
    ∨ ¬ InRange r.ordinal

/-- Apart from its columns the foreign key is as the row says. -/
structure KeyRow.Heads (r : KeyRow) (fk : ForeignKey) : Prop where
  referencedSchema : fk.referencedSchema = r.referencedSchema
  referencedTable : fk.referencedTable = r.referencedTable
  onUpdate : ReferentialAction.parse? r.updateRule = some fk.onUpdate
  onDelete : ReferentialAction.parse? r.deleteRule = some fk.onDelete

/-- The pair of columns is as the row says. -/
structure KeyRow.Gives (r : KeyRow) (c : ForeignKeyColumn) : Prop where
  ordinal : (c.ordinal.toNat : Int) = r.ordinal.toInt
  column : c.column = r.column
  referencedColumn : c.referencedColumn = r.referencedColumn

theorem KeyRow.reads_of_not_refused {r : KeyRow} (h : ¬ r.Refused) :
    ∃ onUpdate onDelete ordinal, ReferentialAction.parse? r.updateRule = some onUpdate
      ∧ ReferentialAction.parse? r.deleteRule = some onDelete
      ∧ narrowed r.ordinal = .ok ordinal ∧ (ordinal.toNat : Int) = r.ordinal.toInt := by
  obtain ⟨hupdate, hdelete, hordinal⟩ : ReferentialAction.parse? r.updateRule ≠ none
      ∧ ReferentialAction.parse? r.deleteRule ≠ none ∧ InRange r.ordinal := by
    simpa [Refused] using h
  obtain ⟨onUpdate, hupdate⟩ := Option.ne_none_iff_exists'.mp hupdate
  obtain ⟨onDelete, hdelete⟩ := Option.ne_none_iff_exists'.mp hdelete
  obtain ⟨ordinal, hnarrowed, hordinal⟩ := narrowed_of_inRange hordinal
  exact ⟨onUpdate, onDelete, ordinal, hupdate, hdelete, hnarrowed, hordinal⟩

/-- Rows of foreign keys, with what an engine's rows say. -/
def foreignKeyFolding {ρ : Type} (said : ρ → KeyRow) :
    Folding ρ ForeignKey ForeignKeyColumn where
  rowName r := (said r).name
  objectName := ForeignKey.name
  entries := ForeignKey.columns
  heads r := (said r).Heads
  gives r := (said r).Gives
  refused r := (said r).Refused

theorem foreignKeyFolding_steps {ρ : Type} (said : ρ → KeyRow) (fault : String → CrawlFault) :
    (foreignKeyFolding said).Steps fun keys r => do
      let onUpdate ← Row.present (fault (said r).updateRule)
        (ReferentialAction.parse? (said r).updateRule)
      let onDelete ← Row.present (fault (said r).deleteRule)
        (ReferentialAction.parse? (said r).deleteRule)
      let ordinal ← narrowed (said r).ordinal
      let start : ForeignKey :=
        { name := (said r).name
          referencedSchema := (said r).referencedSchema
          referencedTable := (said r).referencedTable
          onUpdate := onUpdate
          onDelete := onDelete }
      return addToGroup ForeignKey.name (said r).name start
        (fun fk => { fk with
          columns := fk.columns ++ [⟨ordinal, (said r).column, (said r).referencedColumn⟩] })
        keys := by
  constructor
  case stops =>
    intro r keys hrefused
    rcases hrefused with hupdate | hdelete | hordinal
    · apply bind_fails
      rw [hupdate]
      exact ⟨_, rfl⟩
    · apply bind_fails_after
      intro onUpdate
      apply bind_fails
      rw [hdelete]
      exact ⟨_, rfl⟩
    · apply bind_fails_after
      intro onUpdate
      apply bind_fails_after
      intro onDelete
      exact bind_fails (narrowed_of_not_inRange hordinal)
  case enters =>
    intro r keys hnot
    obtain ⟨onUpdate, onDelete, ordinal, hupdate, hdelete, hnarrowed, hordinal⟩ :=
      KeyRow.reads_of_not_refused hnot
    refine ⟨{ name := (said r).name, referencedSchema := (said r).referencedSchema,
              referencedTable := (said r).referencedTable, onUpdate, onDelete },
      fun fk => { fk with
        columns := fk.columns ++ [⟨ordinal, (said r).column, (said r).referencedColumn⟩] },
      ?_, ?_⟩
    · exact
        { name_start := rfl
          heads_start := ⟨rfl, rfl, hupdate, hdelete⟩
          entries_start := rfl
          name_add := fun _ => rfl
          heads_add := fun _ _ h => ⟨h.referencedSchema, h.referencedTable, h.onUpdate, h.onDelete⟩
          entries_add := ⟨_, ⟨hordinal, rfl, rfl⟩, fun _ => rfl⟩ }
    · rw [hupdate, hdelete, hnarrowed]
      rfl

namespace MySql

/-- The crawled database itself is referred to without a schema. -/
def ForeignKeyRow.said (database : String) (r : ForeignKeyRow) : KeyRow :=
  { name := r.constraintName
    ordinal := r.ordinal
    column := r.columnName
    referencedColumn := r.refColumn
    referencedSchema := localSchema database r.refSchema
    referencedTable := r.refTable
    updateRule := r.updateRule
    deleteRule := r.deleteRule }

def foreignKeyRows (database : String) : Folding ForeignKeyRow ForeignKey ForeignKeyColumn :=
  foreignKeyFolding (ForeignKeyRow.said database)

theorem foreignKeysOf_comes (database : String) (rows : List ForeignKeyRow) :
    (foreignKeyRows database).Comes rows (foreignKeysOf database rows) :=
  (foreignKeyFolding_steps (ForeignKeyRow.said database) .unknownAction).comes rows

end MySql

namespace PostgreSql

def ForeignKeyRow.said (r : ForeignKeyRow) : KeyRow :=
  { name := r.constraintName
    ordinal := r.ordinal
    column := r.columnName
    referencedColumn := r.refColumn
    referencedSchema := r.refSchema
    referencedTable := r.refTable
    updateRule := r.updateRule
    deleteRule := r.deleteRule }

def foreignKeyRows : Folding ForeignKeyRow ForeignKey ForeignKeyColumn :=
  foreignKeyFolding ForeignKeyRow.said

theorem foreignKeysOf_comes (rows : List ForeignKeyRow) :
    foreignKeyRows.Comes rows (foreignKeysOf rows) :=
  (foreignKeyFolding_steps ForeignKeyRow.said .unknownActionCode).comes rows

end PostgreSql

/-! ## All or nothing -/

/-- A table gets an object for each name that its rows bring up, with an entry for each row of
the name and otherwise as the first of them says, or it fails with the table as it was if
nothing can be made of a row.  That holds of indexes and of foreign keys, whatever the rows and
their order are. -/
theorem rows_fill_tables :
    (∀ (rows : List MySql.IndexRow) (t : Table),
      MySql.indexRows.Fills rows (MySql.addIndexes rows) t t.withIndexes)
    ∧ (∀ (database : String) (rows : List MySql.ForeignKeyRow) (t : Table),
      (MySql.foreignKeyRows database).Fills rows (MySql.addForeignKeys database rows) t
        t.withForeignKeys)
    ∧ (∀ (rows : List PostgreSql.IndexRow) (t : Table),
      PostgreSql.indexRows.Fills rows (PostgreSql.addIndexes rows) t t.withIndexes)
    ∧ (∀ (rows : List PostgreSql.ForeignKeyRow) (t : Table),
      PostgreSql.foreignKeyRows.Fills rows (PostgreSql.addForeignKeys rows) t
        t.withForeignKeys) := by
  refine ⟨?mySqlIndexes, ?mySqlKeys, ?postgreSqlIndexes, ?postgreSqlKeys⟩
  case mySqlIndexes =>
    intro rows t
    exact (MySql.indexesOf_comes t.name rows).fills t.foldl_addIndex
  case mySqlKeys =>
    intro database rows t
    exact (MySql.foreignKeysOf_comes database rows).fills t.foldl_addForeignKey
  case postgreSqlIndexes =>
    intro rows t
    exact (PostgreSql.indexesOf_comes t.key rows).fills t.foldl_addIndex
  case postgreSqlKeys =>
    intro rows t
    exact (PostgreSql.foreignKeysOf_comes rows).fills t.foldl_addForeignKey

/-- Rows of two indexes in turns. -/
example :
    MySql.indexesOf "orders" ([("ix_b", "x", 1), ("ix_a", "y", 1), ("ix_b", "z", 2)].map
        fun (index, column, n) =>
          { indexName := index, columnName := some column, seqInIndex := n, nonUnique := 1
            indexType := "BTREE", collation := some "A", subPart := none })
      = .ok
          [{ name := "ix_b", kind := .index, extension := .mySql "BTREE"
             columns := [{ name := "x", ordinal := 1 }, { name := "z", ordinal := 2 }] },
           { name := "ix_a", kind := .index, extension := .mySql "BTREE"
             columns := [{ name := "y", ordinal := 1 }] }] := by
  rfl

end Reconcile
