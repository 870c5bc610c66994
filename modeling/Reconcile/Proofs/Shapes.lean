import Reconcile.Proofs.JsonText
import Reconcile.Settings.Connection

/-!
# Shapes are read back as they are written

Whatever a model, its options and its connections are made of is written as JSON text, on
one line or on several, and read back as it was (`Shape.read_write`).  What is read need
not be what was written: an older spelling is accepted, an optional member may be missing,
unknown members are passed over, and a record may be a list.  Since what is written for
the value that was read is read as that value, rewriting a text keeps its value and is
done once.

A record is read member by member, each found under its name among those that were
written (`Decoder.required_self` and its like, which simplification uses).  That the
members of one record have distinct names, and that a table nests five deep, is what makes
its data fit into a text (`Datum.Plain`).
-/

namespace Reconcile

/-! ## Members -/

namespace Decoder

section Members

variable {α : Type} {d : Decoder α} {name n : String}

@[simp] theorem record_record (w : Notation) (names more : List String)
    (ms : List (String × Datum)) :
    record w names more d (.record ms) = d (.record ms) :=
  rfl

@[simp] theorem tagged_record (tag : String) (names : String → List String)
    (ms : List (String × Datum)) : tagged tag names d (.record ms) = d (.record ms) :=
  rfl

@[simp] theorem required_self (v : Datum) (ms : List (String × Datum)) :
    required name d (.record ((name, v) :: ms)) = d v := by
  simp [required, Datum.member?]

theorem member?_of_ne (h : name ≠ n) (v : Datum) (ms : List (String × Datum)) :
    (Datum.record ((n, v) :: ms)).member? name = (Datum.record ms).member? name := by
  have hother : (name == n) = false := by simpa using h
  simp [Datum.member?, List.lookup_cons, hother]

@[simp] theorem required_of_ne (h : name ≠ n) (v : Datum) (ms : List (String × Datum)) :
    required name d (.record ((n, v) :: ms)) = required name d (.record ms) := by
  rw [required, required, member?_of_ne h]

@[simp] theorem optional_self (v : Datum) (ms : List (String × Datum)) :
    Decoder.optional name d (.record ((name, v) :: ms)) = nullable d v := by
  simp [Decoder.optional, Datum.member?]

@[simp] theorem optional_of_ne (h : name ≠ n) (v : Datum) (ms : List (String × Datum)) :
    Decoder.optional name d (.record ((n, v) :: ms))
      = Decoder.optional name d (.record ms) := by
  rw [Decoder.optional, Decoder.optional, member?_of_ne h]

@[simp] theorem defaulted_self (value : α) (v : Datum) (ms : List (String × Datum)) :
    defaulted name value d (.record ((name, v) :: ms)) = d v := by
  simp [defaulted, Datum.member?]

@[simp] theorem defaulted_of_ne (h : name ≠ n) (value : α) (v : Datum)
    (ms : List (String × Datum)) :
    defaulted name value d (.record ((n, v) :: ms))
      = defaulted name value d (.record ms) := by
  rw [defaulted, defaulted, member?_of_ne h]

end Members

/-! ## Scalars and lists -/

@[simp] theorem text_text (s : String) : text (.text s) = some s :=
  rfl

@[simp] theorem bool_bool (b : Bool) : bool (.bool b) = some b :=
  rfl

theorem ranged_int {lo hi i : Int} (hlo : lo ≤ i) (hhi : i < hi) :
    ranged lo hi (.int i) = some i :=
  if_pos ⟨hlo, hhi⟩

@[simp] theorem uint16_ofUInt16 (n : UInt16) : uint16 (.ofUInt16 n) = some n := by
  rw [uint16, Datum.ofUInt16,
    ranged_int (Int.natCast_nonneg _) (Int.ofNat_lt.mpr n.toNat_lt_size)]
  exact congrArg some UInt16.ofNat_toNat

@[simp] theorem uint32_ofUInt32 (n : UInt32) : uint32 (.ofUInt32 n) = some n := by
  rw [uint32, Datum.ofUInt32,
    ranged_int (Int.natCast_nonneg _) (Int.ofNat_lt.mpr n.toNat_lt_size)]
  exact congrArg some UInt32.ofNat_toNat

@[simp] theorem int64_ofInt64 (n : Int64) : int64 (.ofInt64 n) = some n := by
  rw [int64, Datum.ofInt64,
    ranged_int n.minValue_le_toInt (Int.lt_add_one_of_le n.toInt_le)]
  exact congrArg some (Int64.ofInt_toInt n)

variable {α : Type} {d : Decoder α} {encode : α → Datum}

theorem nullable_ofOption (h : ∀ x, d (encode x) = some x) (hnull : ∀ x, encode x ≠ .null)
    (value : Option α) : nullable d (.ofOption encode value) = some value := by
  cases value with
  | none => rfl
  | some x =>
      rw [Datum.ofOption, nullable]
      · rw [h x]
        rfl
      · exact hnull x

@[simp] theorem nullable_ofText? (value : Option String) :
    nullable text (.ofText? value) = some value :=
  nullable_ofOption text_text (by simp) value

theorem list_ofList (h : ∀ x, d (encode x) = some x) (xs : List α) :
    list d (.ofList encode xs) = some xs := by
  rw [Datum.ofList, list, List.mapM_map]
  induction xs with
  | nil => rfl
  | cons x xs ih => simp [h x, ih]

end Decoder

/-! ## Data that fit into a text -/

namespace Datum

variable {α : Type} {encode : α → Datum} {depth : Nat}

@[simp] theorem plain_bool (depth : Nat) (b : Bool) : (Datum.bool b).Plain depth :=
  .bool depth b

@[simp] theorem plain_text (depth : Nat) (s : String) : (Datum.text s).Plain depth :=
  .text depth s

@[simp] theorem plain_ofInt64 (depth : Nat) (n : Int64) : (ofInt64 n).Plain depth :=
  .int depth _

@[simp] theorem plain_ofUInt32 (depth : Nat) (n : UInt32) : (ofUInt32 n).Plain depth :=
  .int depth _

@[simp] theorem plain_ofUInt16 (depth : Nat) (n : UInt16) : (ofUInt16 n).Plain depth :=
  .int depth _

theorem plain_ofOption (h : ∀ x, (encode x).Plain depth) (value : Option α) :
    (ofOption encode value).Plain depth := by
  cases value with
  | none => exact .null depth
  | some x => exact h x

@[simp] theorem plain_ofText? (depth : Nat) (value : Option String) :
    (ofText? value).Plain depth :=
  plain_ofOption (plain_text depth) value

theorem plain_ofList (h : ∀ x, (encode x).Plain depth) (xs : List α) :
    (ofList encode xs).Plain (depth + 1) := by
  refine .list _ fun d hd => ?_
  obtain ⟨x, -, rfl⟩ := List.mem_map.mp hd
  exact h x

end Datum

/-! ## Spellings -/

@[simp] theorem Dialect.decode_encode (n : Notation) (d : Dialect) :
    Dialect.decode n d.encode = some d := by
  cases d <;> rfl

@[simp] theorem ReferentialAction.decode_encode (a : ReferentialAction) :
    ReferentialAction.decode a.encode = some a := by
  cases a <;> rfl

@[simp] theorem IndexKind.decode_encode (k : IndexKind) :
    IndexKind.decode k.encode = some k := by
  cases k <;> rfl

@[simp] theorem RoutineKind.decode_encode (k : RoutineKind) :
    RoutineKind.decode k.encode = some k := by
  cases k <;> rfl

/-! ## Records -/

open Decoder

@[simp] theorem Identity.decode_encode (i : Identity) : Identity.decode i.encode = some i := by
  simp [Identity.decode, Identity.encode]

@[simp] theorem Identity.plain_encode (depth : Nat) (i : Identity) :
    i.encode.Plain (depth + 1) :=
  .record _ (by simp) (by simp)

@[simp] theorem Column.decode_encode (c : Column) : Column.decode c.encode = some c := by
  have hidentity := nullable_ofOption Identity.decode_encode (by simp [Identity.encode])
    c.identity
  simp [Column.decode, Column.encode, hidentity]

@[simp] theorem Column.plain_encode (depth : Nat) (c : Column) : c.encode.Plain (depth + 2) := by
  have hidentity := Datum.plain_ofOption (Identity.plain_encode depth) c.identity
  exact .record _ (by simp) (by simp [hidentity])

@[simp] theorem IndexExtension.decode_encode (x : IndexExtension) :
    IndexExtension.decode x.encode = some x := by
  cases x <;> simp [IndexExtension.decode, IndexExtension.encode]

@[simp] theorem IndexExtension.plain_encode (depth : Nat) (x : IndexExtension) :
    x.encode.Plain (depth + 1) := by
  cases x <;> exact .record _ (by simp) (by simp)

@[simp] theorem IndexColumn.decode_encode (c : IndexColumn) :
    IndexColumn.decode c.encode = some c := by
  have hlength := nullable_ofOption uint32_ofUInt32 (by simp [Datum.ofUInt32]) c.prefixLength
  simp [IndexColumn.decode, IndexColumn.encode, hlength]

@[simp] theorem IndexColumn.plain_encode (depth : Nat) (c : IndexColumn) :
    c.encode.Plain (depth + 1) := by
  have hlength := Datum.plain_ofOption (Datum.plain_ofUInt32 depth) c.prefixLength
  exact .record _ (by simp) (by simp [hlength])

@[simp] theorem Index.decode_encode (i : Index) : Index.decode i.encode = some i := by
  simp [Index.decode, Index.encode, list_ofList IndexColumn.decode_encode]

@[simp] theorem Index.plain_encode (depth : Nat) (i : Index) : i.encode.Plain (depth + 3) := by
  have hcolumns := Datum.plain_ofList (IndexColumn.plain_encode depth) i.columns
  exact .record _ (by simp) (by simp [hcolumns, IndexKind.encode])

@[simp] theorem ForeignKeyColumn.decode_encode (c : ForeignKeyColumn) :
    ForeignKeyColumn.decode c.encode = some c := by
  simp [ForeignKeyColumn.decode, ForeignKeyColumn.encode]

@[simp] theorem ForeignKeyColumn.plain_encode (depth : Nat) (c : ForeignKeyColumn) :
    c.encode.Plain (depth + 1) :=
  .record _ (by simp) (by simp)

@[simp] theorem ForeignKey.decode_encode (fk : ForeignKey) :
    ForeignKey.decode fk.encode = some fk := by
  simp [ForeignKey.decode, ForeignKey.encode, list_ofList ForeignKeyColumn.decode_encode]

@[simp] theorem ForeignKey.plain_encode (depth : Nat) (fk : ForeignKey) :
    fk.encode.Plain (depth + 3) := by
  have hcolumns := Datum.plain_ofList (ForeignKeyColumn.plain_encode depth) fk.columns
  exact .record _ (by simp) (by simp [hcolumns, ReferentialAction.encode])

@[simp] theorem TableExtension.decode_encode (x : TableExtension) :
    TableExtension.decode x.encode = some x := by
  cases x <;> simp [TableExtension.decode, TableExtension.encode]

@[simp] theorem TableExtension.plain_encode (depth : Nat) (x : TableExtension) :
    x.encode.Plain (depth + 1) := by
  cases x <;> exact .record _ (by simp) (by simp)

@[simp] theorem Table.decode_encode (t : Table) : Table.decode t.encode = some t := by
  simp [Table.decode, Table.encode, list_ofList Column.decode_encode,
    list_ofList Index.decode_encode, list_ofList ForeignKey.decode_encode]

@[simp] theorem Table.plain_encode (depth : Nat) (t : Table) : t.encode.Plain (depth + 5) := by
  have hcolumns := Datum.plain_ofList (Column.plain_encode (depth + 1)) t.columns
  have hindexes := Datum.plain_ofList (Index.plain_encode depth) t.indexes
  have hkeys := Datum.plain_ofList (ForeignKey.plain_encode depth) t.foreignKeys
  exact .record _ (by simp) (by simp [hcolumns, hindexes, hkeys])

@[simp] theorem View.decode_encode (v : View) : View.decode v.encode = some v := by
  simp [View.decode, View.encode]

@[simp] theorem View.plain_encode (depth : Nat) (v : View) : v.encode.Plain (depth + 1) :=
  .record _ (by simp) (by simp)

@[simp] theorem Routine.decode_encode (r : Routine) : Routine.decode r.encode = some r := by
  simp [Routine.decode, Routine.encode]

@[simp] theorem Routine.plain_encode (depth : Nat) (r : Routine) : r.encode.Plain (depth + 1) :=
  .record _ (by simp) (by simp [RoutineKind.encode])

@[simp] theorem Sequence.decode_encode (s : Sequence) : Sequence.decode s.encode = some s := by
  simp [Sequence.decode, Sequence.encode]

@[simp] theorem Sequence.plain_encode (depth : Nat) (s : Sequence) : s.encode.Plain (depth + 1) :=
  .record _ (by simp) (by simp)

@[simp] theorem Options.decode_encode (n : Notation) (o : Options) :
    Options.decode n o.encode = some o := by
  simp [Options.decode, Options.encode]

@[simp] theorem Options.plain_encode (depth : Nat) (o : Options) : o.encode.Plain (depth + 1) :=
  .record _ (by simp) (by simp)

@[simp] theorem Connection.decode_encode (n : Notation) (c : Connection) :
    Connection.decode n c.encode = some c := by
  have hport := nullable_ofOption uint16_ofUInt16 (by simp [Datum.ofUInt16]) c.port
  simp [Connection.decode, Connection.encode, hport]

@[simp] theorem Connection.plain_encode (depth : Nat) (c : Connection) :
    c.encode.Plain (depth + 1) := by
  have hport := Datum.plain_ofOption (Datum.plain_ofUInt16 depth) c.port
  exact .record _ (by simp) (by simp [hport, Dialect.encode])

/-! ## Every shape -/

/-- What is written as data and read back in its own right. -/
inductive Shape where
  | table
  | column
  | index
  | foreignKey
  | view
  | routine
  | sequence
  | tableExtension
  | indexExtension
  | options
  | connection

/-- How a text is laid out. -/
inductive Layout where
  /-- Everything on one line. -/
  | compact
  /-- One item or member to a line. -/
  | pretty

def Layout.write : Layout → Datum → String
  | .compact => Data.Json.render
  | .pretty => Data.Json.pretty

theorem Layout.parse?_write (l : Layout) {d : Datum} (h : d.Plain Data.Json.maxDepth) :
    Data.Json.parse? (l.write d) = some d := by
  cases l with
  | compact => exact Data.Json.parse?_render h
  | pretty => exact Data.Json.parse?_pretty h

namespace Shape

/-- The values of a shape. -/
abbrev Value : Shape → Type
  | .table => Table
  | .column => Column
  | .index => Index
  | .foreignKey => ForeignKey
  | .view => View
  | .routine => Routine
  | .sequence => Sequence
  | .tableExtension => TableExtension
  | .indexExtension => IndexExtension
  | .options => Options
  | .connection => Connection

def encode : (k : Shape) → k.Value → Datum
  | .table => Table.encode
  | .column => Column.encode
  | .index => Index.encode
  | .foreignKey => ForeignKey.encode
  | .view => View.encode
  | .routine => Routine.encode
  | .sequence => Sequence.encode
  | .tableExtension => TableExtension.encode
  | .indexExtension => IndexExtension.encode
  | .options => Options.encode
  | .connection => Connection.encode

def decode : (k : Shape) → Decoder k.Value
  | .table => Table.decode
  | .column => Column.decode
  | .index => Index.decode
  | .foreignKey => ForeignKey.decode
  | .view => View.decode
  | .routine => Routine.decode
  | .sequence => Sequence.decode
  | .tableExtension => TableExtension.decode
  | .indexExtension => IndexExtension.decode
  | .options => Options.decode .json
  | .connection => Connection.decode .json

theorem decode_encode (k : Shape) (x : k.Value) : k.decode (k.encode x) = some x := by
  cases k with
  | table => exact Table.decode_encode x
  | column => exact Column.decode_encode x
  | index => exact Index.decode_encode x
  | foreignKey => exact ForeignKey.decode_encode x
  | view => exact View.decode_encode x
  | routine => exact Routine.decode_encode x
  | sequence => exact Sequence.decode_encode x
  | tableExtension => exact TableExtension.decode_encode x
  | indexExtension => exact IndexExtension.decode_encode x
  | options => exact Options.decode_encode .json x
  | connection => exact Connection.decode_encode .json x

theorem plain_encode (k : Shape) (x : k.Value) : (k.encode x).Plain Data.Json.maxDepth := by
  cases k with
  | table => exact Table.plain_encode 122 x
  | column => exact Column.plain_encode 125 x
  | index => exact Index.plain_encode 124 x
  | foreignKey => exact ForeignKey.plain_encode 124 x
  | view => exact View.plain_encode 126 x
  | routine => exact Routine.plain_encode 126 x
  | sequence => exact Sequence.plain_encode 126 x
  | tableExtension => exact TableExtension.plain_encode 126 x
  | indexExtension => exact IndexExtension.plain_encode 126 x
  | options => exact Options.plain_encode 126 x
  | connection => exact Connection.plain_encode 126 x

variable (k : Shape) (l : Layout)

/-- The text of a value. -/
def write (x : k.Value) : String :=
  l.write (k.encode x)

/-- The value of a text, if it is one of the shape. -/
def read (text : String) : Option k.Value :=
  (Data.Json.parse? text).bind k.decode

/-- The text that takes the place of one that is read. -/
def rewritten (text : String) : Option String :=
  (k.read text).map (k.write l)

theorem read_encoded (x : k.Value) : k.read (k.write l x) = some x := by
  rw [read, write, l.parse?_write (k.plain_encode x)]
  exact k.decode_encode x

/-- Every value is read back as it was written.  Hence a text that is read at all, however
it spells the value, keeps its value when it is rewritten, and what it is rewritten to is
rewritten to itself. -/
theorem read_write :
    (∀ x, k.read (k.write l x) = some x)
      ∧ ∀ text, (k.rewritten l text).bind k.read = k.read text
        ∧ (k.rewritten l text).bind (k.rewritten l) = k.rewritten l text := by
  refine ⟨k.read_encoded l, fun text => ?_⟩
  cases hread : k.read text with
  | none =>
      have hnone : k.rewritten l text = none := congrArg (Option.map _) hread
      rw [hnone]
      exact ⟨rfl, rfl⟩
  | some x =>
      have hsome : k.rewritten l text = some (k.write l x) := congrArg (Option.map _) hread
      have hagain := k.read_encoded l x
      rw [hsome]
      exact ⟨hagain, congrArg (Option.map _) hagain⟩

-- An older spelling, members that are missing and one that is not known.
example : Shape.read .connection
    "\x7b\"note\": [1], \"dialect\": \"mssql\", \"hostname\": \"db\", \"database\": \"shop\"\x7d"
    = some { dialect := .sqlServer, hostname := "db", database := "shop" } := by
  decide +kernel

end Shape

end Reconcile
