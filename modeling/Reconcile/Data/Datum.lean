/-!
# Data

What a structured text denotes, whichever notation it was written in: settings
files and result summaries both go through `Datum`.  A record keeps its members in
the order they were written and holds each name once.
-/

namespace Reconcile

inductive Datum where
  | null
  | bool (value : Bool)
  | int (value : Int)
  /-- The number `mantissa * 10 ^ exponent`, written with a fraction or an exponent. -/
  | real (negative : Bool) (mantissa : Nat) (exponent : Int)
  /-- An infinity or no number at all, kept as it was written. -/
  | limit (value : String)
  | text (value : String)
  /-- A date or a time, kept as it was written. -/
  | moment (value : String)
  | list (items : List Datum)
  | record (members : List (String × Datum))
deriving Inhabited, Repr

namespace Datum

/-- Puts a member in place of one of the same name, or else at the end. -/
def put (name : String) (value : Datum) : List (String × Datum) → List (String × Datum)
  | [] => [(name, value)]
  | (n, v) :: rest => if n = name then (n, value) :: rest else (n, v) :: put name value rest

def ofMembers (members : List (String × Datum)) : Datum :=
  .record (members.foldl (fun ms (n, v) => put n v ms) [])

def member? (name : String) : Datum → Option Datum
  | .record members => members.lookup name
  | _ => none

def ofOption {α : Type} (f : α → Datum) : Option α → Datum
  | none => .null
  | some a => f a

def ofList {α : Type} (f : α → Datum) (items : List α) : Datum :=
  .list (items.map f)

def nat (n : Nat) : Datum :=
  .int n

def asText? : Datum → Option String
  | .text s => some s
  | _ => none

def asBool? : Datum → Option Bool
  | .bool b => some b
  | _ => none

def asInt? : Datum → Option Int
  | .int i => some i
  | _ => none

def isRecord : Datum → Bool
  | .record _ => true
  | _ => false

end Datum

/-- What a datum was written in.  The notations differ in what may stand for a record
and for a spelling. -/
inductive Notation where
  | json
  | toml
deriving DecidableEq, Repr

/-- Whether a value says nothing.  JSON has null for that; TOML has no null and writes an
empty list or table. -/
def Notation.isBare : Notation → Datum → Bool
  | .json, .null => true
  | .toml, .list [] => true
  | .toml, .record [] => true
  | _, _ => false

/-! ## Reading members

A decoder answers `none` for a datum of the wrong shape.  A required member is
present; an optional one may be absent or null; one with a default may be absent
but not null. -/

abbrev Decoder (α : Type) : Type := Datum → Option α

namespace Decoder

def required {α : Type} (name : String) (d : Decoder α) (record : Datum) : Option α :=
  (record.member? name).bind d

def nullable {α : Type} (d : Decoder α) : Decoder (Option α)
  | .null => some none
  | v => (d v).map some

def optional {α : Type} (name : String) (d : Decoder α) (record : Datum) :
    Option (Option α) :=
  match record.member? name with
  | none => some none
  | some v => nullable d v

def defaulted {α : Type} (name : String) (value : α) (d : Decoder α) (record : Datum) :
    Option α :=
  match record.member? name with
  | none => some value
  | some v => d v

def list {α : Type} (d : Decoder α) : Decoder (List α)
  | .list items => items.mapM d
  | _ => none

def text : Decoder String := Datum.asText?

def bool : Decoder Bool := Datum.asBool?

/-- An integer from `lo` up to but not including `hi`. -/
def ranged (lo hi : Int) : Decoder Int := fun v =>
  v.asInt?.bind fun i => if lo ≤ i ∧ i < hi then some i else none

def uint16 : Decoder UInt16 := fun v =>
  (ranged 0 UInt16.size v).map fun i => UInt16.ofNat i.toNat

def uint32 : Decoder UInt32 := fun v =>
  (ranged 0 UInt32.size v).map fun i => UInt32.ofNat i.toNat

def uint64 : Decoder UInt64 := fun v =>
  (ranged 0 UInt64.size v).map fun i => UInt64.ofNat i.toNat

def int64 : Decoder Int64 := fun v =>
  (ranged Int64.minValue.toInt (Int64.maxValue.toInt + 1) v).map Int64.ofInt

/-- A record, whatever its members. -/
def anyRecord {α : Type} (d : Decoder α) : Decoder α := fun v =>
  if v.isRecord then d v else none

/-- A record, which may also be written as the list of its members' values: first those
of `names` and then, as far as the list goes, those of `more`.  In TOML further values
are passed over.  A date or a time is a record whose members are of no use. -/
def record {α : Type} (n : Notation) (names more : List String) (d : Decoder α) : Decoder α
  | .record members => d (.record members)
  | .list values =>
      if names.length ≤ values.length ∧
          (n = .toml ∨ values.length ≤ (names ++ more).length) then
        d (.record ((names ++ more).zip values))
      else none
  | .moment _ => d (.record [])
  | _ => none

/-- A record in JSON whose member `tag` says which other members it has.  In a list the
tag comes first. -/
def tagged {α : Type} (tag : String) (names : String → List String) (d : Decoder α) :
    Decoder α
  | .list (.text kind :: values) =>
      record .json (tag :: names kind) [] d (.list (.text kind :: values))
  | v => anyRecord d v

/-- One of the spellings in `table`, which may also be the name of the only member of a
record, the value of which says nothing then. -/
def choice {α : Type} (n : Notation) (table : List (String × α)) : Decoder α
  | .text s => table.lookup s
  | .record [(s, v)] => if n.isBare v then table.lookup s else none
  | _ => none

end Decoder

end Reconcile
