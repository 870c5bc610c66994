import Reconcile.Schema.Model
import Reconcile.Diff.State
import Reconcile.Data.Datum
/-!
# Shapes of the model

How every part of a model is written as data and read back.  A record is written
with all its members, an absent value as null.  In reading, members that are not
known are passed over, an optional member may be missing or null, and any other
member must be there and of the right kind.  A list of values is read as the record
whose members they are, in the order in which they are written.  Dialects have older
spellings that are read but not written.
-/

namespace Reconcile

open Decoder

/-! ## Spellings -/

def Dialect.spelling : Dialect → String
  | .sqlServer => "microsoftsql"
  | .mySql => "mysql"
  | .postgreSql => "postgresql"

def Dialect.encode (d : Dialect) : Datum := .text d.spelling

def Dialect.decode (n : Notation) : Decoder Dialect :=
  choice n
    [("microsoftsql", .sqlServer), ("mssql", .sqlServer), ("sqlserver", .sqlServer),
     ("mysql", .mySql), ("postgresql", .postgreSql), ("postgres", .postgreSql)]

def Category.spelling : Category → String
  | .sequence => "sequence"
  | .table => "table"
  | .view => "view"
  | .function => "function"
  | .procedure => "procedure"

def Category.encode (c : Category) : Datum := .text c.spelling

def Category.decode : Decoder Category :=
  choice .json (Category.all.map fun c => (c.spelling, c))

def Direction.spelling : Direction → String
  | .sourceToTarget => "source-to-target"
  | .targetToSource => "target-to-source"

def Direction.encode (d : Direction) : Datum := .text d.spelling

def Direction.decode (n : Notation) : Decoder Direction :=
  choice n [("source-to-target", .sourceToTarget), ("target-to-source", .targetToSource)]

def DiffState.encode (s : DiffState) : Datum := .text s.label

def DiffState.decode : Decoder DiffState :=
  choice .json
    [("Added", .added), ("Deleted", .deleted), ("Modified", .modified),
     ("Unchanged", .unchanged)]

def ReferentialAction.spelling : ReferentialAction → String
  | .noAction => "no_action"
  | .restrict => "restrict"
  | .cascade => "cascade"
  | .setNull => "set_null"
  | .setDefault => "set_default"

def ReferentialAction.encode (a : ReferentialAction) : Datum := .text a.spelling

def ReferentialAction.decode : Decoder ReferentialAction :=
  choice .json
    [("no_action", .noAction), ("restrict", .restrict), ("cascade", .cascade),
     ("set_null", .setNull), ("set_default", .setDefault)]

def IndexKind.spelling : IndexKind → String
  | .primaryKey => "primary_key"
  | .uniqueConstraint => "unique_constraint"
  | .unique => "unique"
  | .index => "index"
  | .fulltext => "fulltext"
  | .spatial => "spatial"

def IndexKind.encode (k : IndexKind) : Datum := .text k.spelling

def IndexKind.decode : Decoder IndexKind :=
  choice .json
    [("primary_key", .primaryKey), ("unique_constraint", .uniqueConstraint),
     ("unique", .unique), ("index", .index), ("fulltext", .fulltext), ("spatial", .spatial)]

def RoutineKind.encode (k : RoutineKind) : Datum := .text k.noun

def RoutineKind.decode : Decoder RoutineKind :=
  choice .json [("function", .function), ("procedure", .procedure)]

/-! ## Numbers -/

def Datum.ofInt64 (n : Int64) : Datum := .int n.toInt

def Datum.ofUInt32 (n : UInt32) : Datum := .int n.toNat

def Datum.ofUInt16 (n : UInt16) : Datum := .int n.toNat

def Datum.ofText? : Option String → Datum := Datum.ofOption .text

/-! ## Options and keys -/

def Options.encode (o : Options) : Datum :=
  .record
    [("ignore_collate", .bool o.ignoreCollate),
     ("order_columns_alphabetically", .bool o.orderColumnsAlphabetically),
     ("ignore_reference_table_column_order", .bool o.ignoreReferenceTableColumnOrder),
     ("use_schema_name", .bool o.useSchemaName)]

def Options.decode (n : Notation) : Decoder Options :=
  record n []
      ["ignore_collate", "order_columns_alphabetically", "ignore_reference_table_column_order",
       "use_schema_name"] fun v => do
    return {
      ignoreCollate := ← defaulted "ignore_collate" false bool v
      orderColumnsAlphabetically := ← defaulted "order_columns_alphabetically" false bool v
      ignoreReferenceTableColumnOrder :=
        ← defaulted "ignore_reference_table_column_order" false bool v
      useSchemaName := ← defaulted "use_schema_name" false bool v }

def Key.encode (k : Key) : Datum :=
  .record [("schema", .text k.schema), ("name", .text k.name)]

def Key.decode : Decoder Key := record .json ["schema", "name"] [] fun v => do
  return { schema := ← required "schema" text v, name := ← required "name" text v }

/-! ## Tables -/

def Identity.encode (i : Identity) : Datum :=
  .record [("seed", .ofInt64 i.seed), ("increment", .ofInt64 i.increment)]

def Identity.decode : Decoder Identity := record .json ["seed", "increment"] [] fun v => do
  return { seed := ← required "seed" int64 v, increment := ← required "increment" int64 v }

def Column.encode (c : Column) : Datum :=
  .record
    [("name", .text c.name),
     ("ordinal_position", .ofUInt32 c.ordinalPosition),
     ("data_type", .text c.dataType),
     ("nullable", .bool c.nullable),
     ("default", .ofText? c.default),
     ("collation", .ofText? c.collation),
     ("character_set", .ofText? c.characterSet),
     ("identity", .ofOption Identity.encode c.identity),
     ("comment", .ofText? c.comment),
     ("default_constraint", .ofText? c.defaultConstraint)]

def Column.decode : Decoder Column :=
  record .json ["name", "ordinal_position", "data_type", "nullable", "default", "collation",
      "character_set", "identity", "comment", "default_constraint"] [] fun v => do
    return {
      name := ← required "name" text v
      ordinalPosition := ← required "ordinal_position" uint32 v
      dataType := ← required "data_type" text v
      nullable := ← required "nullable" bool v
      default := ← optional "default" text v
      collation := ← optional "collation" text v
      characterSet := ← optional "character_set" text v
      identity := ← optional "identity" Identity.decode v
      comment := ← optional "comment" text v
      defaultConstraint := ← optional "default_constraint" text v }

/-- The members beside the dialect's name. -/
def IndexExtension.members : String → List String
  | "mysql" => ["index_type"]
  | "microsoftsql" => ["clustered", "filter"]
  | "postgresql" => ["method", "predicate"]
  | _ => []

def IndexExtension.encode : IndexExtension → Datum
  | .none => .record [("dialect", .text "none")]
  | .mySql indexType =>
      .record [("dialect", .text "mysql"), ("index_type", .text indexType)]
  | .sqlServer clustered filter =>
      .record
        [("dialect", .text "microsoftsql"), ("clustered", .bool clustered),
         ("filter", .ofText? filter)]
  | .postgreSql method predicate =>
      .record
        [("dialect", .text "postgresql"), ("method", .text method),
         ("predicate", .ofText? predicate)]

def IndexExtension.decode : Decoder IndexExtension :=
  tagged "dialect" IndexExtension.members fun v => do
    match ← required "dialect" text v with
    | "none" => return .none
    | "mysql" => return .mySql (← required "index_type" text v)
    | "microsoftsql" =>
        return .sqlServer (← required "clustered" bool v) (← optional "filter" text v)
    | "postgresql" =>
        return .postgreSql (← required "method" text v) (← optional "predicate" text v)
    | _ => failure

def IndexColumn.encode (c : IndexColumn) : Datum :=
  .record
    [("name", .text c.name),
     ("ordinal", .ofUInt32 c.ordinal),
     ("descending", .bool c.descending),
     ("prefix_length", .ofOption .ofUInt32 c.prefixLength)]

def IndexColumn.decode : Decoder IndexColumn :=
  record .json ["name", "ordinal", "descending", "prefix_length"] [] fun v => do
    return {
      name := ← required "name" text v
      ordinal := ← required "ordinal" uint32 v
      descending := ← required "descending" bool v
      prefixLength := ← optional "prefix_length" uint32 v }

def Index.encode (i : Index) : Datum :=
  .record
    [("name", .text i.name),
     ("kind", i.kind.encode),
     ("columns", .ofList IndexColumn.encode i.columns),
     ("extension", i.extension.encode)]

def Index.decode : Decoder Index :=
  record .json ["name", "kind", "columns", "extension"] [] fun v => do
    return {
      name := ← required "name" text v
      kind := ← required "kind" IndexKind.decode v
      columns := ← required "columns" (list IndexColumn.decode) v
      extension := ← required "extension" IndexExtension.decode v }

def ForeignKeyColumn.encode (c : ForeignKeyColumn) : Datum :=
  .record
    [("ordinal", .ofUInt32 c.ordinal),
     ("column", .text c.column),
     ("referenced_column", .text c.referencedColumn)]

def ForeignKeyColumn.decode : Decoder ForeignKeyColumn :=
  record .json ["ordinal", "column", "referenced_column"] [] fun v => do
    return {
      ordinal := ← required "ordinal" uint32 v
      column := ← required "column" text v
      referencedColumn := ← required "referenced_column" text v }

def ForeignKey.encode (fk : ForeignKey) : Datum :=
  .record
    [("name", .text fk.name),
     ("columns", .ofList ForeignKeyColumn.encode fk.columns),
     ("referenced_schema", .text fk.referencedSchema),
     ("referenced_table", .text fk.referencedTable),
     ("on_update", fk.onUpdate.encode),
     ("on_delete", fk.onDelete.encode)]

def ForeignKey.decode : Decoder ForeignKey :=
  record .json ["name", "columns", "referenced_schema", "referenced_table", "on_update",
      "on_delete"] [] fun v => do
    return {
      name := ← required "name" text v
      columns := ← required "columns" (list ForeignKeyColumn.decode) v
      referencedSchema := ← required "referenced_schema" text v
      referencedTable := ← required "referenced_table" text v
      onUpdate := ← required "on_update" ReferentialAction.decode v
      onDelete := ← required "on_delete" ReferentialAction.decode v }

/-- The members beside the dialect's name. -/
def TableExtension.members : String → List String
  | "mysql" => ["engine", "version", "character_set", "collation"]
  | _ => []

def TableExtension.encode : TableExtension → Datum
  | .none => .record [("dialect", .text "none")]
  | .mySql engine version characterSet collation =>
      .record
        [("dialect", .text "mysql"), ("engine", .text engine), ("version", .ofInt64 version),
         ("character_set", .text characterSet), ("collation", .text collation)]

def TableExtension.decode : Decoder TableExtension :=
  tagged "dialect" TableExtension.members fun v => do
    match ← required "dialect" text v with
    | "none" => return .none
    | "mysql" =>
        return .mySql (← required "engine" text v) (← required "version" int64 v)
          (← required "character_set" text v) (← required "collation" text v)
    | _ => failure

def Table.encode (t : Table) : Datum :=
  .record
    [("schema", .text t.schema),
     ("name", .text t.name),
     ("columns", .ofList Column.encode t.columns),
     ("indexes", .ofList Index.encode t.indexes),
     ("foreign_keys", .ofList ForeignKey.encode t.foreignKeys),
     ("extension", t.extension.encode)]

def Table.decode : Decoder Table :=
  record .json ["schema", "name", "columns", "indexes", "foreign_keys", "extension"] [] fun v => do
    return {
      schema := ← required "schema" text v
      name := ← required "name" text v
      columns := ← required "columns" (list Column.decode) v
      indexes := ← required "indexes" (list Index.decode) v
      foreignKeys := ← required "foreign_keys" (list ForeignKey.decode) v
      extension := ← required "extension" TableExtension.decode v }

/-! ## Views, routines and sequences -/

def View.encode (v : View) : Datum :=
  .record
    [("schema", .text v.schema), ("name", .text v.name), ("definition", .text v.definition)]

def View.decode : Decoder View := record .json ["schema", "name", "definition"] [] fun v => do
  return {
    schema := ← required "schema" text v
    name := ← required "name" text v
    definition := ← required "definition" text v }

def Routine.encode (r : Routine) : Datum :=
  .record
    [("schema", .text r.schema),
     ("name", .text r.name),
     ("kind", r.kind.encode),
     ("definition", .text r.definition),
     ("arguments", .ofText? r.arguments),
     ("return_type", .ofText? r.returnType)]

def Routine.decode : Decoder Routine :=
  record .json ["schema", "name", "kind", "definition", "arguments", "return_type"] [] fun v => do
    return {
      schema := ← required "schema" text v
      name := ← required "name" text v
      kind := ← required "kind" RoutineKind.decode v
      definition := ← required "definition" text v
      arguments := ← optional "arguments" text v
      returnType := ← optional "return_type" text v }

def Sequence.encode (s : Sequence) : Datum :=
  .record
    [("schema", .text s.schema),
     ("name", .text s.name),
     ("data_type", .text s.dataType),
     ("start_value", .ofInt64 s.startValue),
     ("increment", .ofInt64 s.increment),
     ("min_value", .ofInt64 s.minValue),
     ("max_value", .ofInt64 s.maxValue),
     ("cycle", .bool s.cycle)]

def Sequence.decode : Decoder Sequence :=
  record .json ["schema", "name", "data_type", "start_value", "increment", "min_value", "max_value",
      "cycle"] [] fun v => do
    return {
      schema := ← required "schema" text v
      name := ← required "name" text v
      dataType := ← required "data_type" text v
      startValue := ← required "start_value" int64 v
      increment := ← required "increment" int64 v
      minValue := ← required "min_value" int64 v
      maxValue := ← required "max_value" int64 v
      cycle := ← required "cycle" bool v }

namespace Category

def encodeObject : (c : Category) → c.Object → Datum
  | .sequence, s => s.encode
  | .table, t => t.encode
  | .view, v => v.encode
  | .function, r => r.encode
  | .procedure, r => r.encode

def decodeObject : (c : Category) → Decoder c.Object
  | .sequence => Sequence.decode
  | .table => Table.decode
  | .view => View.decode
  | .function => Routine.decode
  | .procedure => Routine.decode

end Category

end Reconcile
