import Reconcile.Catalog.Server
import Reconcile.Schema.Shape
/-!
# Shapes of a catalog

A catalog as data is a record of the answers to its queries, by the name of the
query.  Whatever is missing has no rows, raises no error and interrupts nothing, and a
column that is missing or null is NULL.
-/

namespace Reconcile

open Decoder

namespace Subject

/-- Name of the query, and what tells queries of that name apart. -/
def label : Subject → String × String
  | .login => ("login", "")
  | .objects c => (c.label, "")
  | .columns table => ("columns", table)
  | .indexes table => ("indexes", table)
  | .foreignKeys table => ("foreign_keys", table)
  | .creation routine => ("show_create", routine)

end Subject

def Cell.ofDatum? : Datum → Option Cell
  | .text s => some (.text s)
  | .int n =>
      if Int64.minValue.toInt ≤ n ∧ n ≤ Int64.maxValue.toInt then some (.int (.ofInt n))
      else none
  | .bool b => some (.bool b)
  | _ => none

def Row.decode : Decoder Row
  | .record ms => some (ms.filterMap fun (n, v) => (Cell.ofDatum? v).map fun c => (n, c))
  | _ => none

/-- The members of a record, none where there is no record. -/
def membersOf : Option Datum → List (String × Datum)
  | some (.record ms) => ms
  | _ => []

def rowsOf (v : Option Datum) : List Row :=
  match v with
  | some (.list rows) => rows.filterMap Row.decode
  | _ => []

def ServerFault.decode : Decoder ServerFault
  | .list [code, state, message] => do
      return { code := ← code.asInt?, state := ← text state, message := ← text message }
  | _ => none

namespace Catalog

/-- The answer to a query among the members of a catalog. -/
def rowsIn (v : Datum) (subject : Subject) : List Row :=
  match subject with
  | .login => []
  | .objects c => rowsOf (v.member? c.label)
  | .creation _ => []
  | .columns table | .indexes table | .foreignKeys table =>
      rowsOf ((membersOf (v.member? subject.label.1)).lookup table)

def creationIn (v : Datum) (routine : String) : Option (Option String) :=
  (membersOf (v.member? "show_create")).lookup routine |>.map Datum.asText?

def faultIn (v : Datum) (subject : Subject) : Option ServerFault :=
  (membersOf (v.member? "errors")).lookup subject.label.1 |>.bind ServerFault.decode

def interruptsIn (v : Datum) (subject : Subject) : Bool :=
  (membersOf (v.member? "cancel_on")).lookup subject.label.1 |>.bind Datum.asText?
    |>.any (· == subject.label.2)

def decode : Decoder Catalog := anyRecord fun v =>
  some
    { rows := rowsIn v
      creation := creationIn v
      fault := faultIn v
      interrupts := interruptsIn v }

end Catalog

end Reconcile
