import Reconcile.Script.Spelling
/-!
# MySQL statements

A column is always restated whole.  A routine's body holds semicolons, so its
creation switches the delimiter and back; the terminator of the statement completes
the switch back.  MySQL has no sequences.
-/

namespace Reconcile.MySql

variable (o : Options)

/-- A name after a keyword, if there is one. -/
def clause (keyword : String) : Option String → String
  | some word => s!" {keyword} {word}"
  | none => ""

def columnDefinition (c : Column) : String :=
  let collation :=
    if o.ignoreCollate then ""
    else clause "CHARACTER SET" c.characterSet ++ clause "COLLATE" c.collation
  Dialect.mySql.quote c.name ++ " " ++ c.dataType ++ collation
    ++ (if c.nullable then " NULL" else " NOT NULL")
    ++ clause "DEFAULT" c.default
    ++ (if c.identity.isSome then " AUTO_INCREMENT" else "")
    ++ clause "COMMENT" (c.comment.map Text.literal)

/-- A table option, left out where the catalog says nothing. -/
def option (name value : String) : List String :=
  if value.isEmpty then [] else [s!"{name}={value}"]

def tableOptions (t : Table) : String :=
  match t.extension with
  | .none => ""
  | .mySql engine _ characterSet collation =>
      Text.joined " "
        (option "ENGINE" engine
          ++ if o.ignoreCollate then []
            else option "DEFAULT CHARSET" characterSet ++ option "COLLATE" collation)

def indexColumns (i : Index) : String :=
  Dialect.mySql.indexColumns
    (fun c => match c.prefixLength with
      | some length => s!"({length})"
      | none => "") i

def createTable (t : Table) : Except ScriptFault (List String) :=
  if t.columns.isEmpty then .error (.noColumns t.name)
  else
    let columns := (creationOrder o t).map (columnDefinition o)
    let key := t.primaryKey?.toList.map fun pk => s!"PRIMARY KEY ({indexColumns pk})"
    let options := tableOptions o t
    .ok [s!"CREATE TABLE {Dialect.mySql.tableName o t} {definitionList (columns ++ key)}"
      ++ if options.isEmpty then "" else " " ++ options]

def addColumn (t : Table) (c : Column) : List String :=
  [Dialect.mySql.alterTable o t s!"ADD COLUMN {columnDefinition o c}"]

def alterColumn (t : Table) (desired _current : Column) : Except ScriptFault (List String) :=
  .ok [Dialect.mySql.alterTable o t s!"MODIFY COLUMN {columnDefinition o desired}"]

def alterTableOptions (desired _current : Table) : List String :=
  let options := tableOptions o desired
  if options.isEmpty then [] else [Dialect.mySql.alterTable o desired options]

def createIndex (t : Table) (i : Index) : String :=
  let columns := indexColumns i
  let create := fun kind =>
    s!"CREATE {kind}INDEX {Dialect.mySql.quote i.name} ON {Dialect.mySql.tableName o t} ({columns})"
  match i.kind with
  | .primaryKey => Dialect.mySql.alterTable o t s!"ADD PRIMARY KEY ({columns})"
  | .unique | .uniqueConstraint => create "UNIQUE "
  | .fulltext => create "FULLTEXT "
  | .spatial => create "SPATIAL "
  | .index =>
      create ""
        ++ match i.extension with
          | .mySql indexType => if Text.sameFolded indexType "HASH" then " USING HASH" else ""
          | _ => ""

def dropIndex (t : Table) (i : Index) : String :=
  match i.kind with
  | .primaryKey => Dialect.mySql.alterTable o t "DROP PRIMARY KEY"
  | _ => s!"DROP INDEX {Dialect.mySql.quote i.name} ON {Dialect.mySql.tableName o t}"

def dropForeignKey (t : Table) (fk : ForeignKey) : String :=
  Dialect.mySql.alterTable o t s!"DROP FOREIGN KEY {Dialect.mySql.quote fk.name}"

def createView (v : View) : Except ScriptFault String :=
  let definition := Text.trim v.definition
  if definition.isEmpty then .error (.noDefinition s!"view {v.name}")
  else .ok s!"CREATE VIEW {Dialect.mySql.qualified o v.schema v.name} AS {definition}"

def createRoutine (r : Routine) : Except ScriptFault String :=
  let definition := Text.trim r.definition
  if definition.isEmpty then .error (.noDefinition s!"{r.kind.noun} {r.name}")
  else .ok s!"DELIMITER //\n{definition} //\nDELIMITER "

def dropRoutine (r : Routine) : String :=
  s!"DROP {r.kind.keyword} {Dialect.mySql.qualified o r.schema r.name}"

def noSequences {α : Type} (s : Sequence) : Except ScriptFault α :=
  .error (.noSequences s.key)

def spelling : Spelling :=
  { dialect := .mySql
    options := o
    terminator := ";"
    columnDefinition := columnDefinition o
    createTable := createTable o
    addColumn := addColumn o
    dropColumn := fun t c => [Dialect.mySql.dropColumn o t c]
    alterColumn := alterColumn o
    alterTableOptions := alterTableOptions o
    indexColumns := indexColumns
    createIndex := fun t i => .ok (createIndex o t i)
    dropIndex := dropIndex o
    referentialActions := fun fk => .ok fk.actionClauses
    dropForeignKey := dropForeignKey o
    createView := createView o
    createRoutine := createRoutine
    dropRoutine := dropRoutine o
    createSequence := noSequences
    alterSequence := fun desired _ => noSequences desired
    dropSequence := noSequences }

end Reconcile.MySql
