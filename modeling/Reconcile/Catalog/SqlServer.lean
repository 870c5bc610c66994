import Reconcile.Catalog.Server
import Reconcile.Crawl.Crawler
/-!
# The SQL Server catalog

Rows are read column by column as the crawler needs them, so of two columns that are
NULL against expectation the one read first is named; a truth value that is NULL is
false.  Types come in parts and are spelled as a table's creation expects them.  XML
indexes are refused.
-/

namespace Reconcile.SqlServer

/-- A type with its length, precision or scale, where it has one.  Lengths are in bytes,
of which wide characters take two, and -1 is no limit. -/
def formatType (typeName : String) (maxLength precision scale : Int) : String :=
  let limited := fun (length : Int) =>
    if maxLength = -1 then s!"{typeName}(max)" else s!"{typeName}({length})"
  if ["varchar", "char", "varbinary", "binary"].contains typeName then limited maxLength
  else if ["nvarchar", "nchar"].contains typeName then limited (maxLength.tdiv 2)
  else if ["decimal", "numeric"].contains typeName then s!"{typeName}({precision},{scale})"
  else if ["datetime2", "datetimeoffset", "time"].contains typeName then
    s!"{typeName}({scale})"
  else typeName

def referentialAction (rule : String) : Except CrawlFault ReferentialAction :=
  Row.present (.unknownAction rule) (ReferentialAction.parse? rule)

/-! ## Rows -/

def text (r : Row) (column : String) : Except CrawlFault String :=
  Row.present (.unexpectedNull column) (r.text? column)

def int (r : Row) (column : String) : Except CrawlFault Int64 :=
  Row.present (.unexpectedNull column) (r.int? column)

def flag (r : Row) (column : String) : Bool :=
  (r.bool? column).getD false

def readColumn (r : Row) : Except CrawlFault Column := do
  let typeName ← text r "type_name"
  let maxLength ← int r "max_length"
  let precision ← int r "precision"
  let scale ← int r "scale"
  return {
    name := ← text r "column_name"
    dataType := formatType typeName maxLength.toInt precision.toInt scale.toInt
    nullable := flag r "is_nullable"
    collation := r.text? "collation_name"
    default := r.text? "default_definition"
    defaultConstraint := r.text? "default_name"
    identity :=
      if flag r "is_identity" then
        some ⟨(r.int? "seed").getD 1, (r.int? "increment").getD 1⟩
      else none }

def indexKind (object : String) (name typeName : String) (r : Row) :
    Except CrawlFault IndexKind :=
  if flag r "is_primary_key" then .ok .primaryKey
  else if flag r "is_unique_constraint" then .ok .uniqueConstraint
  else if typeName = "SPATIAL" then .ok .spatial
  else if typeName = "XML" then .error (.xmlIndex name object)
  else if flag r "is_unique" then .ok .unique
  else .ok .index

/-- The indexes of a table from their rows, in the order of their first rows. -/
def indexesOf (object : String) (rows : List Row) : Except CrawlFault (List Index) :=
  rows.foldlM (fun indexes r => do
    let name ← text r "index_name"
    let typeName ← text r "type_desc"
    let kind ← indexKind object name typeName r
    let columnName ← text r "column_name"
    let ordinal ← narrowed (← int r "ordinal")
    let start : Index :=
      { name := name
        kind := kind
        extension := .sqlServer (typeName == "CLUSTERED") (r.text? "filter_definition") }
    let c : IndexColumn :=
      { name := columnName, ordinal := ordinal, descending := flag r "is_descending_key" }
    return addToGroup Index.name name start (fun i => { i with columns := i.columns ++ [c] })
      indexes) []

/-- The foreign keys of a table from their rows, in the order of their first rows. -/
def foreignKeysOf (rows : List Row) : Except CrawlFault (List ForeignKey) :=
  rows.foldlM (fun keys r => do
    let name ← text r "constraint_name"
    let onUpdate ← referentialAction (← text r "update_rule")
    let onDelete ← referentialAction (← text r "delete_rule")
    let refSchema ← text r "ref_schema"
    let refTable ← text r "ref_table"
    let ordinal ← narrowed (← int r "ordinal")
    let columnName ← text r "column_name"
    let refColumn ← text r "ref_column"
    let start : ForeignKey :=
      { name := name
        referencedSchema := refSchema
        referencedTable := refTable
        onUpdate := onUpdate
        onDelete := onDelete }
    return addToGroup ForeignKey.name name start
      (fun fk => { fk with columns := fk.columns ++ [⟨ordinal, columnName, refColumn⟩] })
      keys) []

/-- Adds the indexes that rows come to. -/
def addIndexes (object : String) (rows : List Row) : Filling Unit :=
  Filling.adding (fun _ => indexesOf object rows) Table.addIndex

/-- Adds the foreign keys that rows come to. -/
def addForeignKeys (rows : List Row) : Filling Unit :=
  Filling.adding (fun _ => foreignKeysOf rows) Table.addForeignKey

/-! ## Queries -/

def tablesQuery : Query :=
  .ofLines
    ["SELECT s.name AS schema_name, t.name AS table_name",
     "FROM sys.tables t",
     "JOIN sys.schemas s ON s.schema_id = t.schema_id",
     "WHERE t.is_ms_shipped = 0",
     "ORDER BY s.name, t.name"]

def columnsQuery (object : String) : Query :=
  .ofLines
    ["SELECT c.name AS column_name,",
     "ty.name AS type_name,",
     "CAST(c.max_length AS BIGINT) AS max_length,",
     "CAST(c.precision AS BIGINT) AS precision,",
     "CAST(c.scale AS BIGINT) AS scale,",
     "c.is_nullable,",
     "c.is_identity,",
     "CAST(ic.seed_value AS BIGINT) AS seed,",
     "CAST(ic.increment_value AS BIGINT) AS increment,",
     "c.collation_name,",
     "dc.name AS default_name,",
     "dc.definition AS default_definition",
     "FROM sys.columns c",
     "JOIN sys.types ty ON ty.user_type_id = c.user_type_id",
     "LEFT JOIN sys.identity_columns ic ON ic.object_id = c.object_id",
     "AND ic.column_id = c.column_id",
     "LEFT JOIN sys.default_constraints dc ON dc.parent_object_id = c.object_id",
     "AND dc.parent_column_id = c.column_id",
     "WHERE c.object_id = OBJECT_ID(@P1)",
     "ORDER BY c.column_id"]
    [object]

def indexesQuery (object : String) : Query :=
  .ofLines
    ["SELECT i.name AS index_name,",
     "i.type_desc,",
     "i.is_unique,",
     "i.is_primary_key,",
     "i.is_unique_constraint,",
     "i.filter_definition,",
     "CAST(ic.key_ordinal AS BIGINT) AS ordinal,",
     "c.name AS column_name,",
     "ic.is_descending_key",
     "FROM sys.indexes i",
     "JOIN sys.index_columns ic ON ic.object_id = i.object_id AND ic.index_id = i.index_id",
     "JOIN sys.columns c ON c.object_id = ic.object_id AND c.column_id = ic.column_id",
     "WHERE i.object_id = OBJECT_ID(@P1) AND i.type > 0 AND ic.key_ordinal > 0",
     "ORDER BY i.name, ic.key_ordinal"]
    [object]

def foreignKeysQuery (object : String) : Query :=
  .ofLines
    ["SELECT fk.name AS constraint_name,",
     "CAST(fkc.constraint_column_id AS BIGINT) AS ordinal,",
     "pc.name AS column_name,",
     "rs.name AS ref_schema,",
     "rt.name AS ref_table,",
     "rc.name AS ref_column,",
     "fk.update_referential_action_desc AS update_rule,",
     "fk.delete_referential_action_desc AS delete_rule",
     "FROM sys.foreign_keys fk",
     "JOIN sys.foreign_key_columns fkc ON fkc.constraint_object_id = fk.object_id",
     "JOIN sys.columns pc ON pc.object_id = fkc.parent_object_id",
     "AND pc.column_id = fkc.parent_column_id",
     "JOIN sys.tables rt ON rt.object_id = fk.referenced_object_id",
     "JOIN sys.schemas rs ON rs.schema_id = rt.schema_id",
     "JOIN sys.columns rc ON rc.object_id = fkc.referenced_object_id",
     "AND rc.column_id = fkc.referenced_column_id",
     "WHERE fk.parent_object_id = OBJECT_ID(@P1)",
     "ORDER BY fk.name, fkc.constraint_column_id"]
    [object]

/-- Views and routines of the given kinds of objects. -/
def modulesQuery (types : String) : Query :=
  .ofLines
    ["SELECT s.name AS schema_name, o.name AS object_name, m.definition",
     "FROM sys.objects o",
     "JOIN sys.schemas s ON s.schema_id = o.schema_id",
     "LEFT JOIN sys.sql_modules m ON m.object_id = o.object_id",
     "WHERE o.type IN (" ++ types ++ ") AND o.is_ms_shipped = 0",
     "ORDER BY s.name, o.name"]

def sequencesQuery : Query :=
  .ofLines
    ["SELECT s.name AS schema_name,",
     "sq.name AS sequence_name,",
     "ty.name AS type_name,",
     "CAST(sq.start_value AS BIGINT) AS start_value,",
     "CAST(sq.increment AS BIGINT) AS increment,",
     "CAST(sq.minimum_value AS BIGINT) AS min_value,",
     "CAST(sq.maximum_value AS BIGINT) AS max_value,",
     "sq.is_cycling",
     "FROM sys.sequences sq",
     "JOIN sys.schemas s ON s.schema_id = sq.schema_id",
     "JOIN sys.types ty ON ty.user_type_id = sq.user_type_id",
     "ORDER BY s.name, sq.name"]

/-! ## Reading -/

section Reading

variable (cat : Catalog)

def readTable (r : Row) : Except CrawlFault Table := do
  return { schema := ← text r "schema_name", name := ← text r "table_name" }

/-- A table with all its parts.  Its queries name it in quotes, with its schema. -/
def completeTable (t : Table) : Reading Table := do
  .message t.key.shown (pure ())
  let object := Dialect.sqlServer.qualify t.schema t.name true
  let columns ← cat.ask .sqlServer (.columns object) (columnsQuery object) readColumn
  let t := columns.foldl Table.addColumn t
  let rows ← cat.ask .sqlServer (.indexes object) (indexesQuery object) pure
  let t ← Reading.filled (addIndexes object rows) t
  let rows ← cat.ask .sqlServer (.foreignKeys object) (foreignKeysQuery object) pure
  Reading.filled (addForeignKeys rows) t

def readTables : Reading (List Table) := do
  let tables ← cat.ask .sqlServer (.objects .table) tablesQuery readTable
  Reading.each (completeTable cat) tables.length tables

/-- The objects that the rows of one query are, each read when its turn comes. -/
def readObjects {α β : Type} (category : Category) (q : Query)
    (decode : Row → Except CrawlFault α) (make : α → Except CrawlFault β) :
    Reading (List β) := do
  let rows ← cat.ask .sqlServer (.objects category) q decode
  let objects ← Reading.each (fun r => Reading.ofExcept (make r)) rows.length rows
  Reading.report rows.length rows.length
  return objects

def readViews : Reading (List View) :=
  readObjects cat .view (modulesQuery "'V'") (fun r => do
    return {
      schema := ← text r "schema_name"
      name := ← text r "object_name"
      definition := (r.text? "definition").getD "" : View }) .ok

/-- The kinds of objects that are routines of a kind. -/
def routineTypes : RoutineKind → String
  | .function => "'FN', 'IF', 'TF'"
  | .procedure => "'P'"

def readRoutines (kind : RoutineKind) : Reading (List Routine) :=
  readObjects cat kind.category (modulesQuery (routineTypes kind)) (fun r => do
    return {
      schema := ← text r "schema_name"
      name := ← text r "object_name"
      kind := kind
      definition := (r.text? "definition").getD "" : Routine }) .ok

def readSequence (r : Row) : Except CrawlFault Sequence := do
  return {
    schema := ← text r "schema_name"
    name := ← text r "sequence_name"
    dataType := ← text r "type_name"
    startValue := ← int r "start_value"
    increment := ← int r "increment"
    minValue := ← int r "min_value"
    maxValue := ← int r "max_value"
    cycle := flag r "is_cycling" }

def readSequences : Reading (List Sequence) :=
  readObjects cat .sequence sequencesQuery .ok readSequence

def crawler (database : String) : Crawler :=
  { dialect := .sqlServer
    database := database
    read := fun
      | .sequence => readSequences cat
      | .table => readTables cat
      | .view => readViews cat
      | .function => readRoutines cat .function
      | .procedure => readRoutines cat .procedure }

end Reading

end Reconcile.SqlServer
