import Reconcile.Catalog.Server
import Reconcile.Crawl.Crawler
import Reconcile.Text.Definer
import Reconcile.Text.Replaced
/-!
# The MySQL catalog

A MySQL database is its own schema, so its objects are crawled with an empty schema:
two databases of different names still pair up by object name, while references into
other databases keep their database's name.  The catalog shows string defaults bare;
`columnDefault` turns a default back into an SQL expression.
-/

namespace Reconcile.MySql

/-! ## Values -/

def isNumericType (dataType : String) : Bool :=
  ["tinyint", "smallint", "mediumint", "int", "integer", "bigint", "decimal", "numeric",
    "float", "double", "real", "year"].any fun t => Text.lowerChars dataType == t.toList

/-- Whether the catalog's remarks on a column hold a word, in any letter case. -/
def remarks (extra word : String) : Bool :=
  Text.occursIn word.toList (Text.lowerChars extra)

/-- A default of the catalog as an SQL expression.  The current time and NULL stand as
they are, whatever the type; a generated default is put in parentheses; numbers and
bit literals stand as they are; everything else is a string. -/
def columnDefault (dataType extra : String) (value : String) : String :=
  let upper := Text.upperChars value
  if "CURRENT_TIMESTAMP".toList.isPrefixOf upper || upper == "NULL".toList then value
  else if remarks extra "default_generated" then s!"({value})"
  else if isNumericType dataType then value
  else if Text.sameFolded dataType "bit" && ['b', '\x27'].isPrefixOf value.toList then value
  else Text.literal value

/-- Empty for the crawled database itself, the name for any other. -/
def localSchema (database schema : String) : String :=
  if schema = database then "" else schema

/-- A stored definition without the crawled database's qualifier. -/
def unqualify (database definition : String) : String :=
  Text.removeAll (Dialect.mySql.quote database ++ ".") definition

def indexKind (name : String) (nonUnique : Int64) (indexType : String) : IndexKind :=
  if name = "PRIMARY" then .primaryKey
  else if Text.sameFolded indexType "FULLTEXT" then .fulltext
  else if Text.sameFolded indexType "SPATIAL" then .spatial
  else if nonUnique = 0 then .unique
  else .index

def referentialAction (rule : String) : Except CrawlFault ReferentialAction :=
  Row.present (.unknownAction rule) (ReferentialAction.parse? rule)

/-! ## Rows -/

def text (r : Row) (column : String) : Except CrawlFault String :=
  Row.present (.undecodableNull column) (r.text? column)

def int (r : Row) (column : String) : Except CrawlFault Int64 :=
  Row.present (.undecodableNull column) (r.int? column)

structure ColumnRow where
  columnName : String
  columnType : String
  dataType : String
  isNullable : String
  columnDefault : Option String
  characterSet : Option String
  collation : Option String
  extra : String
  comment : String

def ColumnRow.decode (r : Row) : Except CrawlFault ColumnRow := do
  return {
    columnName := ← text r "column_name"
    columnType := ← text r "column_type"
    dataType := ← text r "data_type"
    isNullable := ← text r "is_nullable"
    columnDefault := r.text? "column_default"
    characterSet := r.text? "character_set"
    collation := r.text? "collation"
    extra := ← text r "extra"
    comment := ← text r "comment" }

def ColumnRow.column (r : ColumnRow) : Column :=
  { name := r.columnName
    dataType := r.columnType
    nullable := r.isNullable == "YES"
    default := r.columnDefault.map (MySql.columnDefault r.dataType r.extra)
    characterSet := r.characterSet
    collation := r.collation
    identity := if remarks r.extra "auto_increment" then some ⟨1, 1⟩ else none
    comment := if r.comment.isEmpty then none else some r.comment }

structure IndexRow where
  indexName : String
  columnName : Option String
  seqInIndex : Int64
  nonUnique : Int64
  indexType : String
  collation : Option String
  subPart : Option Int64

def IndexRow.decode (r : Row) : Except CrawlFault IndexRow := do
  return {
    indexName := ← text r "index_name"
    columnName := r.text? "column_name"
    seqInIndex := ← int r "seq_in_index"
    nonUnique := ← int r "non_unique"
    indexType := ← text r "index_type"
    collation := r.text? "collation"
    subPart := r.int? "sub_part" }

/-- The column that a row adds to its index. -/
def IndexRow.column (table : String) (r : IndexRow) : Except CrawlFault IndexColumn := do
  let name ← Row.present (.functionalIndex r.indexName table) r.columnName
  let ordinal ← narrowed r.seqInIndex
  let prefixLength ← r.subPart.mapM narrowed
  return {
    name := name
    ordinal := ordinal
    descending := r.collation == some "D"
    prefixLength := prefixLength }

/-- The index that a row starts, without columns. -/
def IndexRow.start (r : IndexRow) : Index :=
  { name := r.indexName
    kind := indexKind r.indexName r.nonUnique r.indexType
    extension := .mySql r.indexType }

/-- The indexes of a table from their rows, in the order of their first rows. -/
def indexesOf (table : String) (rows : List IndexRow) : Except CrawlFault (List Index) :=
  rows.foldlM (fun indexes r => do
    let c ← r.column table
    return addToGroup Index.name r.indexName r.start
      (fun i => { i with columns := i.columns ++ [c] }) indexes) []

structure ForeignKeyRow where
  constraintName : String
  columnName : String
  ordinal : Int64
  refSchema : String
  refTable : String
  refColumn : String
  updateRule : String
  deleteRule : String

def ForeignKeyRow.decode (r : Row) : Except CrawlFault ForeignKeyRow := do
  return {
    constraintName := ← text r "constraint_name"
    columnName := ← text r "column_name"
    ordinal := ← int r "ordinal"
    refSchema := ← text r "ref_schema"
    refTable := ← text r "ref_table"
    refColumn := ← text r "ref_column"
    updateRule := ← text r "update_rule"
    deleteRule := ← text r "delete_rule" }

/-- The foreign keys of a table from their rows, in the order of their first rows. -/
def foreignKeysOf (database : String) (rows : List ForeignKeyRow) :
    Except CrawlFault (List ForeignKey) :=
  rows.foldlM (fun keys r => do
    let onUpdate ← referentialAction r.updateRule
    let onDelete ← referentialAction r.deleteRule
    let ordinal ← narrowed r.ordinal
    let start : ForeignKey :=
      { name := r.constraintName
        referencedSchema := localSchema database r.refSchema
        referencedTable := r.refTable
        onUpdate := onUpdate
        onDelete := onDelete }
    return addToGroup ForeignKey.name r.constraintName start
      (fun fk => { fk with columns := fk.columns ++ [⟨ordinal, r.columnName, r.refColumn⟩] })
      keys) []

/-- Adds the indexes that rows come to. -/
def addIndexes (rows : List IndexRow) : Filling Unit :=
  Filling.adding (fun t => indexesOf t.name rows) Table.addIndex

/-- Adds the foreign keys that rows come to. -/
def addForeignKeys (database : String) (rows : List ForeignKeyRow) : Filling Unit :=
  Filling.adding (fun _ => foreignKeysOf database rows) Table.addForeignKey

/-! ## Queries -/

def tablesQuery (database : String) : Query :=
  .ofLines
    ["SELECT CAST(t.TABLE_NAME AS CHAR) AS table_name,",
     "CAST(COALESCE(t.ENGINE, '') AS CHAR) AS engine,",
     "CAST(COALESCE(t.VERSION, 0) AS SIGNED) AS version,",
     "CAST(COALESCE(c.CHARACTER_SET_NAME, '') AS CHAR) AS character_set,",
     "CAST(COALESCE(t.TABLE_COLLATION, '') AS CHAR) AS collation",
     "FROM information_schema.TABLES t",
     "LEFT JOIN information_schema.COLLATIONS c ON c.COLLATION_NAME = t.TABLE_COLLATION",
     "WHERE t.TABLE_SCHEMA = ? AND t.TABLE_TYPE = 'BASE TABLE'",
     "ORDER BY t.TABLE_NAME"]
    [database]

def columnsQuery (database table : String) : Query :=
  .ofLines
    ["SELECT CAST(COLUMN_NAME AS CHAR) AS column_name,",
     "CAST(COLUMN_TYPE AS CHAR) AS column_type,",
     "CAST(DATA_TYPE AS CHAR) AS data_type,",
     "CAST(IS_NULLABLE AS CHAR) AS is_nullable,",
     "CAST(COLUMN_DEFAULT AS CHAR) AS column_default,",
     "CAST(CHARACTER_SET_NAME AS CHAR) AS character_set,",
     "CAST(COLLATION_NAME AS CHAR) AS collation,",
     "CAST(EXTRA AS CHAR) AS extra,",
     "CAST(COLUMN_COMMENT AS CHAR) AS comment",
     "FROM information_schema.COLUMNS",
     "WHERE TABLE_SCHEMA = ? AND TABLE_NAME = ?",
     "ORDER BY ORDINAL_POSITION"]
    [database, table]

def indexesQuery (database table : String) : Query :=
  .ofLines
    ["SELECT CAST(INDEX_NAME AS CHAR) AS index_name,",
     "CAST(COLUMN_NAME AS CHAR) AS column_name,",
     "CAST(SEQ_IN_INDEX AS SIGNED) AS seq_in_index,",
     "CAST(NON_UNIQUE AS SIGNED) AS non_unique,",
     "CAST(INDEX_TYPE AS CHAR) AS index_type,",
     "CAST(COLLATION AS CHAR) AS collation,",
     "CAST(SUB_PART AS SIGNED) AS sub_part",
     "FROM information_schema.STATISTICS",
     "WHERE TABLE_SCHEMA = ? AND TABLE_NAME = ?",
     "ORDER BY INDEX_NAME, SEQ_IN_INDEX"]
    [database, table]

def foreignKeysQuery (database table : String) : Query :=
  .ofLines
    ["SELECT CAST(k.CONSTRAINT_NAME AS CHAR) AS constraint_name,",
     "CAST(k.COLUMN_NAME AS CHAR) AS column_name,",
     "CAST(k.ORDINAL_POSITION AS SIGNED) AS ordinal,",
     "CAST(k.REFERENCED_TABLE_SCHEMA AS CHAR) AS ref_schema,",
     "CAST(k.REFERENCED_TABLE_NAME AS CHAR) AS ref_table,",
     "CAST(k.REFERENCED_COLUMN_NAME AS CHAR) AS ref_column,",
     "CAST(r.UPDATE_RULE AS CHAR) AS update_rule,",
     "CAST(r.DELETE_RULE AS CHAR) AS delete_rule",
     "FROM information_schema.KEY_COLUMN_USAGE k",
     "JOIN information_schema.REFERENTIAL_CONSTRAINTS r",
     "ON r.CONSTRAINT_SCHEMA = k.CONSTRAINT_SCHEMA",
     "AND r.CONSTRAINT_NAME = k.CONSTRAINT_NAME",
     "AND r.TABLE_NAME = k.TABLE_NAME",
     "WHERE k.TABLE_SCHEMA = ? AND k.TABLE_NAME = ?",
     "AND k.REFERENCED_TABLE_NAME IS NOT NULL",
     "ORDER BY k.CONSTRAINT_NAME, k.ORDINAL_POSITION"]
    [database, table]

def viewsQuery (database : String) : Query :=
  .ofLines
    ["SELECT CAST(TABLE_NAME AS CHAR) AS view_name,",
     "CAST(VIEW_DEFINITION AS CHAR) AS definition",
     "FROM information_schema.VIEWS",
     "WHERE TABLE_SCHEMA = ?",
     "ORDER BY TABLE_NAME"]
    [database]

def routinesQuery (database : String) (kind : RoutineKind) : Query :=
  .ofLines
    ["SELECT CAST(ROUTINE_NAME AS CHAR) AS routine_name,",
     "CAST(DTD_IDENTIFIER AS CHAR) AS return_type",
     "FROM information_schema.ROUTINES",
     "WHERE ROUTINE_SCHEMA = ? AND ROUTINE_TYPE = ?",
     "ORDER BY ROUTINE_NAME"]
    [database, kind.keyword]

/-- A routine as the query for its creation statement names it. -/
def routineShown (database : String) (kind : RoutineKind) (name : String) : String :=
  s!"{kind.keyword} {Dialect.mySql.quote database}.{Dialect.mySql.quote name}"

/-! ## Reading -/

section Reading

variable (database : String) (cat : Catalog)

def readTable (r : Row) : Except CrawlFault Table := do
  return {
    schema := ""
    name := ← text r "table_name"
    extension := .mySql (← text r "engine") (← int r "version") (← text r "character_set")
      (← text r "collation") }

/-- A table with all its parts. -/
def completeTable (t : Table) : Reading Table := do
  .message t.name (pure ())
  let columns ← cat.ask .mySql (.columns t.name) (columnsQuery database t.name)
    ColumnRow.decode
  let t := columns.foldl (fun t r => t.addColumn r.column) t
  let rows ← cat.ask .mySql (.indexes t.name) (indexesQuery database t.name) IndexRow.decode
  let t ← Reading.filled (addIndexes rows) t
  let rows ← cat.ask .mySql (.foreignKeys t.name) (foreignKeysQuery database t.name)
    ForeignKeyRow.decode
  Reading.filled (addForeignKeys database rows) t

def readTables : Reading (List Table) := do
  let tables ← cat.ask .mySql (.objects .table) (tablesQuery database) readTable
  Reading.each (completeTable database cat) tables.length tables

def readView (r : Row) : Except CrawlFault View := do
  return {
    schema := ""
    name := ← text r "view_name"
    definition := unqualify database ((r.text? "definition").getD "") }

def readViews : Reading (List View) := do
  let views ← cat.ask .mySql (.objects .view) (viewsQuery database) (readView database)
  let views ← Reading.each pure views.length views
  Reading.report views.length views.length
  return views

/-- The creation statement of a routine, empty where it is not to be seen. -/
def definitionOf (kind : RoutineKind) (name : String) : Reading String := do
  let shown := routineShown database kind name
  cat.send .mySql (.creation shown) { text := s!"SHOW CREATE {shown}" }
  match cat.creation shown with
  | none => Reading.fail (.crawl .missingRow)
  | some definition => return (definition.map Text.stripDefiner).getD ""

def readRoutines (kind : RoutineKind) : Reading (List Routine) := do
  let rows ← cat.ask .mySql (.objects kind.category) (routinesQuery database kind) fun r => do
    return (← text r "routine_name", r.text? "return_type")
  Reading.each (fun (name, returnType) => do
      let definition ← definitionOf database cat kind name
      return { schema := "", name := name, kind := kind, definition := definition,
               returnType := returnType })
    rows.length rows

/-- The engine has no sequences. -/
def readSequences : Reading (List Sequence) := do
  Reading.report 0 0
  return []

def crawler : Crawler :=
  { dialect := .mySql
    database := database
    read := fun
      | .sequence => readSequences
      | .table => readTables database cat
      | .view => readViews database cat
      | .function => readRoutines database cat .function
      | .procedure => readRoutines database cat .procedure }

end Reading

end Reconcile.MySql
