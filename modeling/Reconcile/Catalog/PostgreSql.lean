import Reconcile.Catalog.Server
import Reconcile.Crawl.Crawler
/-!
# The PostgreSQL catalog

Routines come with the argument lists that tell overloads apart, columns with their
identities and indexes with their predicates.  Schemas of the system are left out, and
so are objects of extensions.  An index over an expression is refused.
-/

namespace Reconcile.PostgreSql

def referentialAction (code : String) : Except CrawlFault ReferentialAction :=
  Row.present (.unknownActionCode code) (ReferentialAction.parse? code)

/-! ## Rows -/

def text (r : Row) (column : String) : Except CrawlFault String :=
  Row.present (.undecodableNull column) (r.text? column)

def int (r : Row) (column : String) : Except CrawlFault Int64 :=
  Row.present (.undecodableNull column) (r.int? column)

def bool (r : Row) (column : String) : Except CrawlFault Bool :=
  Row.present (.undecodableNull column) (r.bool? column)

structure ColumnRow where
  columnName : String
  dataType : String
  nullable : Bool
  columnDefault : Option String
  collation : Option String
  /-- Empty for a column without an identity. -/
  identity : String
  identityStart : Option Int64
  identityIncrement : Option Int64
  comment : Option String

def ColumnRow.decode (r : Row) : Except CrawlFault ColumnRow := do
  return {
    columnName := ← text r "column_name"
    dataType := ← text r "data_type"
    nullable := ← bool r "nullable"
    columnDefault := r.text? "column_default"
    collation := r.text? "collation"
    identity := ← text r "identity"
    identityStart := r.int? "identity_start"
    identityIncrement := r.int? "identity_increment"
    comment := r.text? "comment" }

def ColumnRow.column (r : ColumnRow) : Column :=
  { name := r.columnName
    dataType := r.dataType
    nullable := r.nullable
    default := r.columnDefault
    collation := r.collation
    identity :=
      if r.identity.isEmpty then none
      else some ⟨r.identityStart.getD 1, r.identityIncrement.getD 1⟩
    comment := r.comment }

structure IndexRow where
  indexName : String
  isPrimary : Bool
  isUnique : Bool
  isConstraint : Bool
  method : String
  predicate : Option String
  ordinal : Int64
  columnName : Option String
  descending : Bool

def IndexRow.decode (r : Row) : Except CrawlFault IndexRow := do
  return {
    indexName := ← text r "index_name"
    isPrimary := ← bool r "is_primary"
    isUnique := ← bool r "is_unique"
    isConstraint := ← bool r "is_constraint"
    method := ← text r "method"
    predicate := r.text? "predicate"
    ordinal := ← int r "ordinal"
    columnName := r.text? "column_name"
    descending := ← bool r "descending" }

/-- The column that a row adds to its index. -/
def IndexRow.column (table : Key) (r : IndexRow) : Except CrawlFault IndexColumn := do
  let name ← Row.present (.expressionIndex r.indexName table) r.columnName
  let ordinal ← narrowed r.ordinal
  return { name := name, ordinal := ordinal, descending := r.descending }

def IndexRow.kind (r : IndexRow) : IndexKind :=
  if r.isPrimary then .primaryKey
  else if r.isUnique && r.isConstraint then .uniqueConstraint
  else if r.isUnique then .unique
  else .index

/-- The index that a row starts, without columns. -/
def IndexRow.start (r : IndexRow) : Index :=
  { name := r.indexName, kind := r.kind, extension := .postgreSql r.method r.predicate }

/-- The indexes of a table from their rows, in the order of their first rows. -/
def indexesOf (table : Key) (rows : List IndexRow) : Except CrawlFault (List Index) :=
  rows.foldlM (fun indexes r => do
    let c ← r.column table
    return addToGroup Index.name r.indexName r.start
      (fun i => { i with columns := i.columns ++ [c] }) indexes) []

structure ForeignKeyRow where
  constraintName : String
  ordinal : Int64
  columnName : String
  refSchema : String
  refTable : String
  refColumn : String
  updateRule : String
  deleteRule : String

def ForeignKeyRow.decode (r : Row) : Except CrawlFault ForeignKeyRow := do
  return {
    constraintName := ← text r "constraint_name"
    ordinal := ← int r "ordinal"
    columnName := ← text r "column_name"
    refSchema := ← text r "ref_schema"
    refTable := ← text r "ref_table"
    refColumn := ← text r "ref_column"
    updateRule := ← text r "update_rule"
    deleteRule := ← text r "delete_rule" }

/-- The foreign keys of a table from their rows, in the order of their first rows. -/
def foreignKeysOf (rows : List ForeignKeyRow) : Except CrawlFault (List ForeignKey) :=
  rows.foldlM (fun keys r => do
    let onUpdate ← referentialAction r.updateRule
    let onDelete ← referentialAction r.deleteRule
    let ordinal ← narrowed r.ordinal
    let start : ForeignKey :=
      { name := r.constraintName
        referencedSchema := r.refSchema
        referencedTable := r.refTable
        onUpdate := onUpdate
        onDelete := onDelete }
    return addToGroup ForeignKey.name r.constraintName start
      (fun fk => { fk with columns := fk.columns ++ [⟨ordinal, r.columnName, r.refColumn⟩] })
      keys) []

/-- Adds the indexes that rows come to. -/
def addIndexes (rows : List IndexRow) : Filling Unit :=
  Filling.adding (fun t => indexesOf t.key rows) Table.addIndex

/-- Adds the foreign keys that rows come to. -/
def addForeignKeys (rows : List ForeignKeyRow) : Filling Unit :=
  Filling.adding (fun _ => foreignKeysOf rows) Table.addForeignKey

/-! ## Queries -/

/-- The condition that a column names a schema of the users. -/
def userSchema (column : String) : String :=
  s!"{column} NOT IN ('pg_catalog', 'information_schema') AND {column} NOT LIKE 'pg_toast%' "
    ++ s!"AND {column} NOT LIKE 'pg_temp%'"

def tablesQuery : Query :=
  .ofLines
    ["SELECT n.nspname::text AS schema_name, c.relname::text AS table_name",
     "FROM pg_class c",
     "JOIN pg_namespace n ON n.oid = c.relnamespace",
     "WHERE c.relkind IN ('r', 'p') AND NOT c.relispartition AND " ++ userSchema "n.nspname",
     "ORDER BY 1, 2"]

def columnsQuery (table : Key) : Query :=
  .ofLines
    ["SELECT a.attname::text AS column_name,",
     "format_type(a.atttypid, a.atttypmod) AS data_type,",
     "NOT a.attnotnull AS nullable,",
     "pg_get_expr(d.adbin, d.adrelid) AS column_default,",
     "CASE WHEN a.attcollation <> ty.typcollation THEN co.collname::text END AS collation,",
     "a.attidentity::text AS identity,",
     "s.seqstart AS identity_start,",
     "s.seqincrement AS identity_increment,",
     "col_description(a.attrelid, a.attnum) AS comment",
     "FROM pg_attribute a",
     "JOIN pg_class c ON c.oid = a.attrelid",
     "JOIN pg_namespace n ON n.oid = c.relnamespace",
     "JOIN pg_type ty ON ty.oid = a.atttypid",
     "LEFT JOIN pg_attrdef d ON d.adrelid = a.attrelid AND d.adnum = a.attnum",
     "LEFT JOIN pg_collation co ON co.oid = a.attcollation",
     "LEFT JOIN pg_sequence s ON a.attidentity <> ''",
     "AND s.seqrelid = pg_get_serial_sequence(format('%I.%I', n.nspname, c.relname),",
     "a.attname)::regclass",
     "WHERE n.nspname = $1 AND c.relname = $2",
     "AND a.attnum > 0 AND NOT a.attisdropped",
     "ORDER BY a.attnum"]
    [table.schema, table.name]

def indexesQuery (table : Key) : Query :=
  .ofLines
    ["SELECT i.relname::text AS index_name,",
     "ix.indisprimary AS is_primary,",
     "ix.indisunique AS is_unique,",
     "(con.oid IS NOT NULL) AS is_constraint,",
     "am.amname::text AS method,",
     "pg_get_expr(ix.indpred, ix.indrelid) AS predicate,",
     "k.ord::int AS ordinal,",
     "a.attname::text AS column_name,",
     "(ix.indoption[(k.ord - 1)::int] & 1) = 1 AS descending",
     "FROM pg_index ix",
     "JOIN pg_class i ON i.oid = ix.indexrelid",
     "JOIN pg_class t ON t.oid = ix.indrelid",
     "JOIN pg_namespace n ON n.oid = t.relnamespace",
     "JOIN pg_am am ON am.oid = i.relam",
     "LEFT JOIN pg_constraint con ON con.conindid = ix.indexrelid",
     "AND con.contype IN ('p', 'u')",
     "CROSS JOIN LATERAL unnest(ix.indkey) WITH ORDINALITY AS k(attnum, ord)",
     "LEFT JOIN pg_attribute a ON a.attrelid = t.oid AND a.attnum = k.attnum",
     "WHERE n.nspname = $1 AND t.relname = $2 AND k.ord <= ix.indnkeyatts",
     "ORDER BY i.relname, k.ord"]
    [table.schema, table.name]

def foreignKeysQuery (table : Key) : Query :=
  .ofLines
    ["SELECT con.conname::text AS constraint_name,",
     "k.ord::int AS ordinal,",
     "a.attname::text AS column_name,",
     "rn.nspname::text AS ref_schema,",
     "rt.relname::text AS ref_table,",
     "ra.attname::text AS ref_column,",
     "con.confupdtype::text AS update_rule,",
     "con.confdeltype::text AS delete_rule",
     "FROM pg_constraint con",
     "JOIN pg_class t ON t.oid = con.conrelid",
     "JOIN pg_namespace n ON n.oid = t.relnamespace",
     "JOIN pg_class rt ON rt.oid = con.confrelid",
     "JOIN pg_namespace rn ON rn.oid = rt.relnamespace",
     "CROSS JOIN LATERAL unnest(con.conkey, con.confkey) WITH ORDINALITY",
     "AS k(attnum, refattnum, ord)",
     "JOIN pg_attribute a ON a.attrelid = con.conrelid AND a.attnum = k.attnum",
     "JOIN pg_attribute ra ON ra.attrelid = con.confrelid AND ra.attnum = k.refattnum",
     "WHERE con.contype = 'f' AND n.nspname = $1 AND t.relname = $2",
     "ORDER BY con.conname, k.ord"]
    [table.schema, table.name]

def viewsQuery : Query :=
  .ofLines
    ["SELECT schemaname::text AS schema_name, viewname::text AS view_name, definition",
     "FROM pg_views",
     "WHERE " ++ userSchema "schemaname",
     "ORDER BY 1, 2"]

def routinesQuery (kind : RoutineKind) : Query :=
  .ofLines
    ["SELECT n.nspname::text AS schema_name,",
     "p.proname::text AS routine_name,",
     "pg_get_function_identity_arguments(p.oid) AS arguments,",
     "CASE WHEN p.prokind = 'f' THEN pg_get_function_result(p.oid) END AS return_type,",
     "pg_get_functiondef(p.oid) AS definition",
     "FROM pg_proc p",
     "JOIN pg_namespace n ON n.oid = p.pronamespace",
     "WHERE p.prokind::text = $1 AND " ++ userSchema "n.nspname",
     "AND NOT EXISTS (",
     "SELECT 1 FROM pg_depend d",
     "WHERE d.classid = 'pg_proc'::regclass AND d.objid = p.oid AND d.deptype = 'e' )",
     "ORDER BY 1, 2, 3"]
    [match kind with | .function => "f" | .procedure => "p"]

/-- Sequences behind identity columns belong to their columns and are left out. -/
def sequencesQuery : Query :=
  .ofLines
    ["SELECT n.nspname::text AS schema_name,",
     "c.relname::text AS sequence_name,",
     "format_type(s.seqtypid, NULL) AS data_type,",
     "s.seqstart AS start_value,",
     "s.seqincrement AS increment,",
     "s.seqmin AS min_value,",
     "s.seqmax AS max_value,",
     "s.seqcycle AS cycle",
     "FROM pg_sequence s",
     "JOIN pg_class c ON c.oid = s.seqrelid",
     "JOIN pg_namespace n ON n.oid = c.relnamespace",
     "WHERE " ++ userSchema "n.nspname",
     "AND NOT EXISTS (",
     "SELECT 1 FROM pg_depend d",
     "WHERE d.classid = 'pg_class'::regclass AND d.objid = c.oid",
     "AND d.deptype IN ('i', 'e') )",
     "ORDER BY 1, 2"]

/-! ## Reading -/

section Reading

variable (cat : Catalog)

def readTable (r : Row) : Except CrawlFault Table := do
  return { schema := ← text r "schema_name", name := ← text r "table_name" }

/-- A table with all its parts. -/
def completeTable (t : Table) : Reading Table := do
  let shown := t.key.shown
  .message shown (pure ())
  let columns ← cat.ask .postgreSql (.columns shown) (columnsQuery t.key) ColumnRow.decode
  let t := columns.foldl (fun t r => t.addColumn r.column) t
  let rows ← cat.ask .postgreSql (.indexes shown) (indexesQuery t.key) IndexRow.decode
  let t ← Reading.filled (addIndexes rows) t
  let rows ← cat.ask .postgreSql (.foreignKeys shown) (foreignKeysQuery t.key)
    ForeignKeyRow.decode
  Reading.filled (addForeignKeys rows) t

def readTables : Reading (List Table) := do
  let tables ← cat.ask .postgreSql (.objects .table) tablesQuery readTable
  Reading.each (completeTable cat) tables.length tables

/-- The objects that the rows of one query are, which are reported one by one. -/
def readObjects {α : Type} (category : Category) (q : Query)
    (decode : Row → Except CrawlFault α) : Reading (List α) := do
  let objects ← cat.ask .postgreSql (.objects category) q decode
  let objects ← Reading.each pure objects.length objects
  Reading.report objects.length objects.length
  return objects

def readViews : Reading (List View) :=
  readObjects cat .view viewsQuery fun r => do
    return {
      schema := ← text r "schema_name"
      name := ← text r "view_name"
      definition := (r.text? "definition").getD "" }

def readRoutines (kind : RoutineKind) : Reading (List Routine) :=
  readObjects cat kind.category (routinesQuery kind) fun r => do
    return {
      schema := ← text r "schema_name"
      name := ← text r "routine_name"
      kind := kind
      arguments := some (← text r "arguments")
      returnType := r.text? "return_type"
      definition := (r.text? "definition").getD "" }

def readSequences : Reading (List Sequence) :=
  readObjects cat .sequence sequencesQuery fun r => do
    return {
      schema := ← text r "schema_name"
      name := ← text r "sequence_name"
      dataType := ← text r "data_type"
      startValue := ← int r "start_value"
      increment := ← int r "increment"
      minValue := ← int r "min_value"
      maxValue := ← int r "max_value"
      cycle := ← bool r "cycle" }

def crawler (database : String) : Crawler :=
  { dialect := .postgreSql
    database := database
    read := fun
      | .sequence => readSequences cat
      | .table => readTables cat
      | .view => readViews cat
      | .function => readRoutines cat .function
      | .procedure => readRoutines cat .procedure }

end Reading

end Reconcile.PostgreSql
