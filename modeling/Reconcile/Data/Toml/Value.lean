import Reconcile.Data.Toml.Scalar
import Reconcile.Data.Toml.Tree
/-!
# TOML values

A value is a scalar, a list in brackets, which may be spread over lines and end in a
comma, or a table in braces, which may not.  Values are nested less than eighty deep,
and a dotted key has fewer than eighty parts.
-/

namespace Reconcile.Data.Toml

/-! ## Keys -/

def isBareKey (c : Char) : Bool :=
  c.isAlphanum || c == '-' || c == '_'

/-- One part of a key: bare, or quoted on one line. -/
def keyPart? : List Char → Option (String × List Char)
  | '\x22' :: cs => readBasic [] .text cs
  | '\x27' :: cs => readLiteral [] cs
  | cs =>
      match cs.takeWhile isBareKey with
      | [] => none
      | name => some (String.ofList name, cs.dropWhile isBareKey)

/-- A key of at most `left` parts with points between them, and what follows it and
the blanks after it. -/
def keyWithin? : Nat → List Char → Option (List String × List Char)
  | 0, _ => none
  | left + 1, cs =>
      match keyPart? (skipBlanks cs) with
      | none => none
      | some (part, rest) =>
          match skipBlanks rest with
          | '.' :: rest =>
              (keyWithin? left rest).map fun (parts, rest) => (part :: parts, rest)
          | rest => some ([part], rest)

/-- How many parts a key may have, and how many lists and tables may enclose a value. -/
def nesting : Nat := 79

/-- A key as the path to its last part, that part, and what follows. -/
def key? (cs : List Char) : Option (List String × String × List Char) :=
  match keyWithin? nesting cs with
  | none => none
  | some (parts, rest) => parts.getLast?.map fun name => (parts.dropLast, name, rest)

/-! ## White space in lists -/

/-- What follows blanks, line ends and comments. -/
def skipLines (inComment : Bool) : List Char → Option (List Char)
  | [] => some []
  | c :: cs =>
      if c = '\n' then skipLines false cs
      else if inComment then if isPlain c then skipLines true cs else none
      else if isBlank c then skipLines false cs
      else if c = '#' then skipLines true cs
      else some (c :: cs)

/-! ## Values -/

mutual

/-- A value inside which at most `depth` lists and tables lie. -/
def valueWithin? : Nat → Nat → List Char → Option (Datum × List Char)
  | 0, _, _ => none
  | fuel + 1, depth, cs =>
      match cs with
      | '[' :: cs =>
          match depth with
          | 0 => none
          | depth + 1 =>
              match skipLines false cs with
              | none => none
              | some cs =>
                  (items? fuel depth cs).map fun (items, rest) => (.list items, rest)
      | '\x7b' :: cs =>
          match depth with
          | 0 => none
          | depth + 1 =>
              match skipBlanks cs with
              | '\x7d' :: rest => some (.record [], rest)
              | cs =>
                  (members? fuel depth [] cs).map fun (ms, rest) =>
                    (.record (membersData ms), rest)
      | '\x22' :: _ => (text? cs).map fun (s, rest) => (.text s, rest)
      | '\x27' :: _ => (text? cs).map fun (s, rest) => (.text s, rest)
      | _ => bare? cs

/-- The items of a list up to its closing bracket. -/
def items? : Nat → Nat → List Char → Option (List Datum × List Char)
  | 0, _, _ => none
  | fuel + 1, depth, cs =>
      match cs with
      | ']' :: rest => some ([], rest)
      | _ =>
          match valueWithin? fuel depth cs with
          | none => none
          | some (d, rest) =>
              match skipLines false rest with
              | some (']' :: rest) => some ([d], rest)
              | some (',' :: rest) =>
                  match skipLines false rest with
                  | none => none
                  | some rest =>
                      (items? fuel depth rest).map fun (items, rest) => (d :: items, rest)
              | _ => none

/-- The members of a table up to its closing brace, added to `ms`. -/
def members? : Nat → Nat → Members → List Char → Option (Members × List Char)
  | 0, _, _, _ => none
  | fuel + 1, depth, ms, cs =>
      match key? cs with
      | some (path, name, '=' :: rest) =>
          match valueWithin? fuel depth (skipBlanks rest) with
          | none => none
          | some (d, rest) =>
              match assign path name d .header ms with
              | none => none
              | some ms =>
                  match skipBlanks rest with
                  | '\x7d' :: rest => some (ms, rest)
                  | ',' :: rest => members? fuel depth ms rest
                  | _ => none
      | _ => none

end

def value? (cs : List Char) : Option (Datum × List Char) :=
  valueWithin? (2 * cs.length + 2) nesting cs

end Reconcile.Data.Toml
