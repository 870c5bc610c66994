import Reconcile.Script.Spelling
/-!
# SQL Server statements

Every statement ends its batch, so the terminator is a line of its own.  A default
is a constraint with a name: it is dropped before its column changes type or goes,
and put back afterwards.  An identity cannot be changed in place, nor can the type
of a sequence, which is dropped and created anew.
-/

namespace Reconcile.SqlServer

variable (o : Options)

def collateClause : Option String → String
  | some collation => s!" COLLATE {collation}"
  | none => ""

def nullability (nullable : Bool) : String :=
  if nullable then " NULL" else " NOT NULL"

/-- What ALTER COLUMN restates: type, collation and nullability. -/
def shape (dataType : String) (collation : Option String) (nullable : Bool) : String :=
  dataType ++ collateClause collation ++ nullability nullable

def columnShape (c : Column) : String :=
  shape c.dataType (c.scriptedCollation o) c.nullable

/-- The name of a constraint, before what it says. -/
def constraintClause : Option String → String
  | some name => s!"CONSTRAINT {Dialect.sqlServer.quote name} "
  | none => ""

def columnDefinition (c : Column) : String :=
  Dialect.sqlServer.quote c.name ++ " " ++ c.dataType ++ collateClause (c.scriptedCollation o)
    ++ (match c.identity with
      | some i => s!" IDENTITY({i.seed},{i.increment})"
      | none => "")
    ++ nullability c.nullable
    ++ (match c.default with
      | some expression => s!" {constraintClause c.defaultConstraint}DEFAULT {expression}"
      | none => "")

/-- Primary keys are clustered unless the catalog says otherwise. -/
def clustering (i : Index) : String :=
  let clustered : Bool := match i.extension with
    | .sqlServer clustered _ => clustered
    | _ => i.kind == .primaryKey
  if clustered then "CLUSTERED" else "NONCLUSTERED"

def indexColumns (i : Index) : String :=
  Dialect.sqlServer.indexColumns (fun _ => "") i

def createTable (t : Table) : List String :=
  let columns := (creationOrder o t).map (columnDefinition o)
  let key := t.primaryKey?.toList.map fun pk =>
    s!"CONSTRAINT {Dialect.sqlServer.quote pk.name} PRIMARY KEY {clustering pk} ({indexColumns pk})"
  [s!"CREATE TABLE {Dialect.sqlServer.tableName o t} {definitionList (columns ++ key)}"]

def addColumn (t : Table) (c : Column) : List String :=
  [Dialect.sqlServer.alterTable o t s!"ADD {columnDefinition o c}"]

def dropColumn (t : Table) (c : Column) : List String :=
  c.defaultConstraint.toList.map (Dialect.sqlServer.dropConstraint o t)
    ++ [Dialect.sqlServer.dropColumn o t c]

/-! ## Altering a column -/

/-- A change of a column, or of the constraint that is its default. -/
inductive ColumnChange where
  | dropDefault (constraint : String)
  | restate (dataType : String) (collation : Option String) (nullable : Bool)
  | addDefault (constraint : Option String) (expression : String)
deriving DecidableEq, Repr

/-- The drop of a default that is to change, by the name of its constraint. -/
def dropDefault (t : Table) (current : Column) : Except ScriptFault (List ColumnChange) :=
  match current.default, current.defaultConstraint with
  | none, _ => .ok []
  | some _, some name => .ok [.dropDefault name]
  | some _, none => .error (.unnamedDefault t.name current.name)

/-- The changes, in order, that turn the second column into the first. -/
def columnChanges (t : Table) (desired current : Column) :
    Except ScriptFault (List ColumnChange) := do
  if desired.identity ≠ current.identity then
    throw (.identityChange t.name desired.name)
  let defaultChanged := desired.default != current.default
  let drops ← if defaultChanged then dropDefault t current else pure []
  let restatements :=
    if columnShape o desired != columnShape o current then
      [.restate desired.dataType (desired.scriptedCollation o) desired.nullable]
    else []
  let adds :=
    if defaultChanged then
      desired.default.toList.map (.addDefault desired.defaultConstraint)
    else []
  return drops ++ restatements ++ adds

/-- The statement of a change of a column. -/
def ColumnChange.statement (t : Table) (column : String) (change : ColumnChange) : String :=
  let name := Dialect.sqlServer.quote column
  match change with
  | .dropDefault constraint => Dialect.sqlServer.dropConstraint o t constraint
  | .restate dataType collation nullable =>
      Dialect.sqlServer.alterTable o t s!"ALTER COLUMN {name} {shape dataType collation nullable}"
  | .addDefault constraint expression =>
      Dialect.sqlServer.alterTable o t
        s!"ADD {constraintClause constraint}DEFAULT {expression} FOR {name}"

def alterColumn (t : Table) (desired current : Column) : Except ScriptFault (List String) :=
  (columnChanges o t desired current).map fun changes =>
    changes.map (ColumnChange.statement o t desired.name)

/-! ## Indexes, views, routines and sequences -/

def createIndex (t : Table) (i : Index) : Except ScriptFault String :=
  let columns := indexColumns i
  let name := Dialect.sqlServer.quote i.name
  let table := Dialect.sqlServer.tableName o t
  let constraint := fun kind =>
    Dialect.sqlServer.alterTable o t s!"ADD CONSTRAINT {name} {kind} {clustering i} ({columns})"
  let create := fun unique =>
    s!"CREATE {unique}{clustering i} INDEX {name} ON {table} ({columns})"
      ++ match i.extension with
        | .sqlServer _ (some filter) => s!" WHERE {filter}"
        | _ => ""
  match i.kind with
  | .primaryKey => .ok (constraint "PRIMARY KEY")
  | .uniqueConstraint => .ok (constraint "UNIQUE")
  | .unique => .ok (create "UNIQUE ")
  | .index => .ok (create "")
  | .spatial => .ok s!"CREATE SPATIAL INDEX {name} ON {table} ({columns})"
  | .fulltext => .error (.fulltextIndex i.name t.name)

def dropIndex (t : Table) (i : Index) : String :=
  if i.kind.isConstraint then Dialect.sqlServer.dropConstraint o t i.name
  else s!"DROP INDEX {Dialect.sqlServer.quote i.name} ON {Dialect.sqlServer.tableName o t}"

def referentialActions (fk : ForeignKey) : Except ScriptFault String :=
  if fk.onDelete = .restrict ∨ fk.onUpdate = .restrict then .error (.noRestrict fk.name)
  else .ok fk.actionClauses

/-- A stored definition, unless it is blank. -/
def definition (noun : String) (key : Key) (text : String) : Except ScriptFault String :=
  let text := Text.trim text
  if text.isEmpty then .error (.hiddenDefinition s!"{noun} {key.shown}") else .ok text

def createView (v : View) : Except ScriptFault String :=
  definition "view" v.key v.definition

def createRoutine (r : Routine) : Except ScriptFault String :=
  definition r.kind.noun ⟨r.schema, r.name⟩ r.definition

def dropRoutine (r : Routine) : String :=
  s!"DROP {r.kind.keyword} {Dialect.sqlServer.qualified o r.schema r.name}"

def sequenceOptions (s : Sequence) : String :=
  let cycle := if s.cycle then "CYCLE" else "NO CYCLE"
  s!"INCREMENT BY {s.increment} MINVALUE {s.minValue} MAXVALUE {s.maxValue} {cycle}"

def createSequence (s : Sequence) : String :=
  s!"CREATE SEQUENCE {Dialect.sqlServer.qualified o s.schema s.name} AS {s.dataType} START WITH {s.startValue} {sequenceOptions s}"

def alterSequence (desired current : Sequence) : List String :=
  if Text.sameFolded desired.dataType current.dataType then
    [s!"ALTER SEQUENCE {Dialect.sqlServer.qualified o desired.schema desired.name} RESTART WITH {desired.startValue} {sequenceOptions desired}"]
  else [Dialect.sqlServer.dropSequence o current, createSequence o desired]

def spelling : Spelling :=
  { dialect := .sqlServer
    options := o
    terminator := "\nGO"
    columnDefinition := columnDefinition o
    createTable := fun t => .ok (createTable o t)
    addColumn := addColumn o
    dropColumn := dropColumn o
    alterColumn := alterColumn o
    alterTableOptions := fun _ _ => []
    indexColumns := indexColumns
    createIndex := createIndex o
    dropIndex := dropIndex o
    referentialActions := referentialActions
    dropForeignKey := fun t fk => Dialect.sqlServer.dropConstraint o t fk.name
    createView := createView
    createRoutine := createRoutine
    dropRoutine := dropRoutine o
    createSequence := fun s => .ok (createSequence o s)
    alterSequence := fun desired current => .ok (alterSequence o desired current)
    dropSequence := fun s => .ok (Dialect.sqlServer.dropSequence o s) }

end Reconcile.SqlServer
