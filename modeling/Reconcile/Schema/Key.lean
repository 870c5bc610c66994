/-!
# Keys

An object is identified within its category by its schema and its name.  Keys are
ordered by schema and then by name, character by character, which is the order of
every listing; the order of code points is also that of their UTF-8 bytes.
-/

namespace Reconcile

structure Key where
  schema : String
  name : String
deriving DecidableEq, Repr, Inhabited

namespace Key

def shown (k : Key) : String :=
  k.schema ++ "." ++ k.name

/-- Strict order: by schema, and by name within a schema. -/
def before (a b : Key) : Bool :=
  decide (a.schema < b.schema) || (a.schema == b.schema && decide (a.name < b.name))

end Key

/-! ## Keyed collections -/

/-- Values filed under keys, in strictly ascending order of the keys. -/
abbrev Keyed (α : Type) : Type := List (Key × α)

namespace Keyed

variable {α : Type}

/-- Files `value` under `key`, in place of what was there. -/
def insert (key : Key) (value : α) : Keyed α → Keyed α
  | [] => [(key, value)]
  | (k, v) :: rest =>
      if key.before k then (key, value) :: (k, v) :: rest
      else if k.before key then (k, v) :: insert key value rest
      else (key, value) :: rest

def find? (key : Key) : Keyed α → Option α
  | [] => none
  | (k, v) :: rest => if k = key then some v else find? key rest

def erase (key : Key) : Keyed α → Keyed α
  | [] => []
  | (k, v) :: rest => if k = key then rest else (k, v) :: erase key rest

def keys (m : Keyed α) : List Key :=
  m.map Prod.fst

def values (m : Keyed α) : List α :=
  m.map Prod.snd

end Keyed

/-- Adds a key to an ascending list that may hold it already. -/
def Key.insertInto (key : Key) : List Key → List Key
  | [] => [key]
  | k :: rest =>
      if key.before k then key :: k :: rest
      else if k.before key then k :: key.insertInto rest
      else k :: rest

/-- The keys of either collection, ascending and each once. -/
def Keyed.unionKeys {α : Type} (a b : Keyed α) : List Key :=
  b.keys.foldl (fun ks k => k.insertInto ks) a.keys

end Reconcile
