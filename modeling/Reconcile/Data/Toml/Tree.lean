import Reconcile.Data.Datum
/-!
# Growing TOML tables

The tables of a TOML text grow from its lines, and a line may only add.  What may be
added to a table depends on how it came to be: a header names a table once; a table
that merely lies on the way to a header may still get its own; a table made by dotted
keys grows by dotted keys alone; and a table written in braces is a value and does
not grow at all.
-/

namespace Reconcile.Data.Toml

inductive Origin where
  /-- The text as a whole, or named by a header. -/
  | header
  /-- On the way to a header. -/
  | implied
  /-- On the way to the last part of a dotted key. -/
  | dotted
deriving DecidableEq, Repr, Inhabited

inductive Node where
  | value (datum : Datum)
  | table (origin : Origin) (members : List (String × Node))
  /-- Tables under one header in double brackets, in the order of those headers. -/
  | tables (items : List (List (String × Node)))
deriving Inhabited

abbrev Members : Type := List (String × Node)

def Members.put (name : String) (node : Node) : Members → Members
  | [] => [(name, node)]
  | (n, x) :: rest => if n = name then (n, node) :: rest else (n, x) :: put name node rest

/-- Changes the table that a path leads to by `f`, which is told how it came to be.
Missing tables on the way are made with origin `made`; of several tables under one
name the last is taken. -/
def within (made : Origin) (f : Origin → Members → Option Members) :
    List String → Origin → Members → Option Members
  | [], origin, ms => f origin ms
  | name :: path, _, ms =>
      match ms.lookup name with
      | none => (within made f path made []).map fun sub => ms ++ [(name, .table made sub)]
      | some (.value _) => none
      | some (.tables items) =>
          match items.getLast? with
          | none => none
          | some last =>
              (within made f path .header last).map fun sub =>
                ms.put name (.tables (items.dropLast ++ [sub]))
      | some (.table origin sub) =>
          if made = .dotted ∧ origin = .header then none
          else (within made f path origin sub).map fun sub => ms.put name (.table origin sub)

/-- Adds a value under a dotted key, given as the path to its last part and that part. -/
def assign (path : List String) (name : String) (value : Datum) :
    Origin → Members → Option Members :=
  within .dotted
    (fun origin ms =>
      if (origin = .dotted) = path.isEmpty then none
      else match ms.lookup name with
        | some _ => none
        | none => some (ms ++ [(name, .value value)]))
    path

/-- Makes room for a header in single brackets. -/
def openTable (path : List String) (name : String) : Members → Option Members :=
  within .implied
    (fun _ ms =>
      match ms.lookup name with
      | none => some (ms ++ [(name, .table .header [])])
      | some (.table .implied sub) => some (ms.put name (.table .header sub))
      | some _ => none)
    path .header

/-- Makes room for a header in double brackets. -/
def openItem (path : List String) (name : String) : Members → Option Members :=
  within .implied
    (fun _ ms =>
      match ms.lookup name with
      | none => some (ms ++ [(name, .tables [[]])])
      | some (.tables items) => some (ms.put name (.tables (items ++ [[]])))
      | some _ => none)
    path .header

/-! ## As data -/

mutual

def Node.datum : Node → Datum
  | .value d => d
  | .table _ ms => .record (membersData ms)
  | .tables items => .list (itemsData items)

def membersData : List (String × Node) → List (String × Datum)
  | [] => []
  | (name, node) :: rest => (name, node.datum) :: membersData rest

def itemsData : List (List (String × Node)) → List Datum
  | [] => []
  | ms :: rest => .record (membersData ms) :: itemsData rest

end

end Reconcile.Data.Toml
