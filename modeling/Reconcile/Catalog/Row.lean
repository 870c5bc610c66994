import Reconcile.Fault
/-!
# Catalog rows

A row gives each of its columns a text, an integer or a truth value, or NULL.  A
column that is read as always present fails on NULL, and with which words is for the
engine's reader to say.
-/

namespace Reconcile

inductive Cell where
  | text (value : String)
  | int (value : Int64)
  | bool (value : Bool)
deriving DecidableEq, Repr, Inhabited

/-- The columns that are not NULL, by name. -/
abbrev Row : Type := List (String × Cell)

namespace Row

def text? (r : Row) (column : String) : Option String :=
  match r.lookup column with
  | some (.text s) => some s
  | _ => none

def int? (r : Row) (column : String) : Option Int64 :=
  match r.lookup column with
  | some (.int n) => some n
  | _ => none

def bool? (r : Row) (column : String) : Option Bool :=
  match r.lookup column with
  | some (.bool b) => some b
  | _ => none

/-- A value that must not be NULL. -/
def present {α : Type} (fault : CrawlFault) : Option α → Except CrawlFault α
  | some a => .ok a
  | none => .error fault

end Row

/-- An ordinal or a length as a catalog counts it, in the range of the model. -/
def narrowed (n : Int64) : Except CrawlFault UInt32 :=
  if n < 0 then .error .numberTooSmall
  else if UInt32.size ≤ n.toInt then .error .numberTooLarge
  else .ok (UInt32.ofNat n.toInt.toNat)

/-! ## Groups of rows -/

/-- Adds to the first group of a name, or to a new one at the end.  `start` makes the
new group. -/
def addToGroup {γ : Type} (nameOf : γ → String) (name : String) (start : γ) (add : γ → γ) :
    List γ → List γ
  | [] => [add start]
  | g :: gs => if nameOf g = name then add g :: gs else g :: addToGroup nameOf name start add gs

end Reconcile
