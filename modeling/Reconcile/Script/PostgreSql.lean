import Reconcile.Script.Spelling
/-!
# PostgreSQL statements

Comments are statements of their own, after the column they belong to.  A column is
altered aspect by aspect: type and collation, identity, nullability, default,
comment.  Stored definitions may carry their own final semicolon, which `body`
takes off.
-/

namespace Reconcile.PostgreSql

variable (o : Options)

def collateClause : Option String → String
  | some collation => s!" COLLATE {Dialect.postgreSql.quote collation}"
  | none => ""

def identityClause (i : Identity) : String :=
  s!"GENERATED BY DEFAULT AS IDENTITY (START WITH {i.seed} INCREMENT BY {i.increment})"

def columnComment (t : Table) (column : String) (comment : Option String) : String :=
  let text := match comment with
    | some comment => Text.literal comment
    | none => "NULL"
  s!"COMMENT ON COLUMN {Dialect.postgreSql.tableName o t}.{Dialect.postgreSql.quote column} IS {text}"

/-- A definition without white space at its ends and without the semicolons that
then end it. -/
def bodyChars (cs : List Char) : List Char :=
  Text.dropEndWhile Text.isBlank (Text.dropEndWhile (· == ';') (Text.trimChars cs))

def body (definition : String) : String :=
  String.ofList (bodyChars definition.toList)

def columnDefinition (c : Column) : String :=
  Dialect.postgreSql.quote c.name ++ " " ++ c.dataType ++ collateClause (c.scriptedCollation o)
    ++ (match c.identity with
      | some i => " " ++ identityClause i
      | none => "")
    ++ (if c.nullable then "" else " NOT NULL")
    ++ (match c.default with
      | some expression => s!" DEFAULT {expression}"
      | none => "")

def indexColumns (i : Index) : String :=
  Dialect.postgreSql.indexColumns (fun _ => "") i

def createTable (t : Table) : List String :=
  let columns := creationOrder o t
  let key := t.primaryKey?.toList.map fun pk =>
    s!"CONSTRAINT {Dialect.postgreSql.quote pk.name} PRIMARY KEY ({indexColumns pk})"
  s!"CREATE TABLE {Dialect.postgreSql.tableName o t} {definitionList (columns.map (columnDefinition o) ++ key)}"
    :: (columns.filter (·.comment.isSome)).map fun c => columnComment o t c.name c.comment

def addColumn (t : Table) (c : Column) : List String :=
  Dialect.postgreSql.alterTable o t s!"ADD COLUMN {columnDefinition o c}"
    :: if c.comment.isSome then [columnComment o t c.name c.comment] else []

/-! ## Altering a column -/

/-- A change of one aspect of a column. -/
inductive ColumnChange where
  | retype (dataType : String) (collation : Option String)
  | addIdentity (i : Identity)
  | dropIdentity
  | setIdentity (i : Identity)
  | setNullable (nullable : Bool)
  | setDefault (expression : String)
  | dropDefault
  | comment (text : Option String)
deriving DecidableEq, Repr

/-- How the identity of a column is brought from the second to the first. -/
def identityChange : Option Identity → Option Identity → List ColumnChange
  | some i, none => [.addIdentity i]
  | none, some _ => [.dropIdentity]
  | some i, some _ => [.setIdentity i]
  | none, none => []

def defaultChange : Option String → ColumnChange
  | some expression => .setDefault expression
  | none => .dropDefault

/-- The changes, in order, that turn the second column into the first. -/
def columnChanges (desired current : Column) : List ColumnChange :=
  (if !Text.sameFolded desired.dataType current.dataType
        || desired.scriptedCollation o != current.scriptedCollation o then
      [.retype desired.dataType (desired.scriptedCollation o)] else [])
    ++ (if desired.identity != current.identity then
      identityChange desired.identity current.identity else [])
    ++ (if desired.nullable != current.nullable then [.setNullable desired.nullable] else [])
    ++ (if desired.default != current.default then [defaultChange desired.default] else [])
    ++ (if desired.comment != current.comment then [.comment desired.comment] else [])

/-- The statement of a change of a column. -/
def ColumnChange.statement (t : Table) (column : String) (change : ColumnChange) : String :=
  let alter := fun clause =>
    Dialect.postgreSql.alterTable o t
      s!"ALTER COLUMN {Dialect.postgreSql.quote column} {clause}"
  match change with
  | .retype dataType collation => alter s!"TYPE {dataType}{collateClause collation}"
  | .addIdentity i => alter s!"ADD {identityClause i}"
  | .dropIdentity => alter "DROP IDENTITY"
  | .setIdentity i => alter s!"SET START WITH {i.seed} SET INCREMENT BY {i.increment}"
  | .setNullable true => alter "DROP NOT NULL"
  | .setNullable false => alter "SET NOT NULL"
  | .setDefault expression => alter s!"SET DEFAULT {expression}"
  | .dropDefault => alter "DROP DEFAULT"
  | .comment text => columnComment o t column text

def alterColumn (t : Table) (desired current : Column) : List String :=
  (columnChanges o desired current).map (ColumnChange.statement o t desired.name)

/-! ## Indexes, views, routines and sequences -/

def createIndex (t : Table) (i : Index) : Except ScriptFault String :=
  let columns := indexColumns i
  let constraint := fun kind =>
    Dialect.postgreSql.alterTable o t
      s!"ADD CONSTRAINT {Dialect.postgreSql.quote i.name} {kind} ({columns})"
  let (method, predicate) := match i.extension with
    | .postgreSql method predicate => (method, predicate)
    | _ => ("btree", none)
  let create := fun unique =>
    s!"CREATE {unique}INDEX {Dialect.postgreSql.quote i.name} ON {Dialect.postgreSql.tableName o t}"
      ++ (if Text.sameFolded method "btree" then "" else s!" USING {method}")
      ++ s!" ({columns})"
      ++ (match predicate with
        | some condition => s!" WHERE {condition}"
        | none => "")
  match i.kind with
  | .primaryKey => .ok (constraint "PRIMARY KEY")
  | .uniqueConstraint => .ok (constraint "UNIQUE")
  | .unique => .ok (create "UNIQUE ")
  | .index => .ok (create "")
  | .fulltext | .spatial => .error (.inexpressibleIndex i.name t.name)

def dropIndex (t : Table) (i : Index) : String :=
  if i.kind.isConstraint then Dialect.postgreSql.dropConstraint o t i.name
  else s!"DROP INDEX {Dialect.postgreSql.qualified o t.schema i.name}"

def createView (v : View) : Except ScriptFault String :=
  let text := body v.definition
  if text.isEmpty then .error (.noDefinition s!"view {v.key.shown}")
  else .ok s!"CREATE VIEW {Dialect.postgreSql.qualified o v.schema v.name} AS\n{text}"

def createRoutine (r : Routine) : Except ScriptFault String :=
  let text := body r.definition
  if text.isEmpty then .error (.noDefinition r.key.shown) else .ok text

def dropRoutine (r : Routine) : String :=
  let arguments := r.arguments.getD ""
  s!"DROP {r.kind.keyword} {Dialect.postgreSql.qualified o r.schema r.name}({arguments})"

def sequenceOptions (s : Sequence) : String :=
  let cycle := if s.cycle then "CYCLE" else "NO CYCLE"
  s!"AS {s.dataType} INCREMENT BY {s.increment} MINVALUE {s.minValue} MAXVALUE {s.maxValue} START WITH {s.startValue} {cycle}"

def createSequence (s : Sequence) : String :=
  s!"CREATE SEQUENCE {Dialect.postgreSql.qualified o s.schema s.name} {sequenceOptions s}"

def alterSequence (desired _current : Sequence) : String :=
  s!"ALTER SEQUENCE {Dialect.postgreSql.qualified o desired.schema desired.name} {sequenceOptions desired}"

def spelling : Spelling :=
  { dialect := .postgreSql
    options := o
    terminator := ";"
    columnDefinition := columnDefinition o
    createTable := fun t => .ok (createTable o t)
    addColumn := addColumn o
    dropColumn := fun t c => [Dialect.postgreSql.dropColumn o t c]
    alterColumn := fun t desired current => .ok (alterColumn o t desired current)
    alterTableOptions := fun _ _ => []
    indexColumns := indexColumns
    createIndex := createIndex o
    dropIndex := dropIndex o
    referentialActions := fun fk => .ok fk.actionClauses
    dropForeignKey := fun t fk => Dialect.postgreSql.dropConstraint o t fk.name
    createView := createView o
    createRoutine := createRoutine
    dropRoutine := dropRoutine o
    createSequence := fun s => .ok (createSequence o s)
    alterSequence := fun desired current => .ok [alterSequence o desired current]
    dropSequence := fun s => .ok (Dialect.postgreSql.dropSequence o s) }

end Reconcile.PostgreSql
