import Reconcile.Data.Toml.Value
/-!
# TOML

`Toml.parse?` reads a TOML 1.0 text.  A text is a row of lines, each of which opens a
table or adds one value to the table that is open; `line?` reads them and `assemble`
grows the tables.  A byte order mark may stand in front, and a carriage return counts
only before a line feed.
-/

namespace Reconcile.Data.Toml

/-- What one line says, its key as a path and the part after it. -/
inductive Line where
  | table (path : List String) (name : String)
  | item (path : List String) (name : String)
  | assignment (path : List String) (name : String) (value : Datum)

/-- What follows the end of a line, which may have a comment before it. -/
def lineEnd? (cs : List Char) : Option (List Char) :=
  let rest :=
    match skipBlanks cs with
    | '#' :: cs => cs.dropWhile isPlain
    | cs => cs
  match rest with
  | [] => some []
  | '\n' :: cs => some cs
  | _ => none

/-- One line that says something, and what follows its end. -/
def line? (cs : List Char) : Option (Line × List Char) :=
  match cs with
  | '[' :: '[' :: cs =>
      match key? cs with
      | some (path, name, ']' :: ']' :: rest) =>
          (lineEnd? rest).map fun rest => (.item path name, rest)
      | _ => none
  | '[' :: cs =>
      match key? cs with
      | some (path, name, ']' :: rest) =>
          (lineEnd? rest).map fun rest => (.table path name, rest)
      | _ => none
  | cs =>
      match key? cs with
      | some (path, name, '=' :: rest) =>
          match value? (skipBlanks rest) with
          | none => none
          | some (d, rest) => (lineEnd? rest).map fun rest => (.assignment path name d, rest)
      | _ => none

/-- The lines of a text of at most `fuel` characters. -/
def linesWithin : Nat → List Char → Option (List Line)
  | 0, [] => some []
  | 0, _ :: _ => none
  | fuel + 1, cs =>
      match skipBlanks cs with
      | [] => some []
      | '\n' :: cs => linesWithin fuel cs
      | '#' :: cs => (lineEnd? ('#' :: cs)).bind (linesWithin fuel)
      | cs =>
          match line? cs with
          | none => none
          | some (line, rest) => (linesWithin fuel rest).map (line :: ·)

/-- The tables so far and the path to the one that is open. -/
structure Growth where
  root : Members := []
  current : List String := []

def Growth.add (g : Growth) : Line → Option Growth
  | .table path name =>
      (openTable path name g.root).map fun root => ⟨root, path ++ [name]⟩
  | .item path name =>
      (openItem path name g.root).map fun root => ⟨root, path ++ [name]⟩
  | .assignment path name value =>
      (within .implied (assign path name value) g.current .header g.root).map fun root =>
        { g with root := root }

def assemble (lines : List Line) : Option Members :=
  (lines.foldlM Growth.add {}).map Growth.root

/-- Carriage returns before line feeds dropped. -/
def unifyLineEnds : List Char → List Char
  | [] => []
  | '\r' :: '\n' :: cs => '\n' :: unifyLineEnds cs
  | c :: cs => c :: unifyLineEnds cs

def dropMark : List Char → List Char
  | '\uFEFF' :: cs => cs
  | cs => cs

/-- The record that a text denotes, if it is a TOML text. -/
def parse? (s : String) : Option Datum :=
  let cs := unifyLineEnds (dropMark s.toList)
  ((linesWithin (cs.length + 1) cs).bind assemble).map fun ms => .record (membersData ms)

end Reconcile.Data.Toml
