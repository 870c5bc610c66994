import Reconcile.Data.Token
/-!
# JSON

`Json.parse?` reads a JSON text and `Json.render` writes one.  A record that names
a member twice keeps the later value, and a text that nests too deeply is refused.
Written texts escape the quote, the backslash and control characters and leave
everything else as it is; `pretty` spreads the same tokens over indented lines.
-/

namespace Reconcile.Data.Json

/-! ## Reading -/

mutual

/-- One value at the front of the tokens, nested at most `fuel` deep in steps. -/
def value? : Nat → List Token → Option (Datum × List Token)
  | 0, _ => none
  | fuel + 1, tokens =>
      match tokens with
      | .scalar d :: rest => some (d, rest)
      | .listOpen :: .listClose :: rest => some (.list [], rest)
      | .listOpen :: rest => (items? fuel rest).map fun (items, rest) => (.list items, rest)
      | .recordOpen :: .recordClose :: rest => some (.record [], rest)
      | .recordOpen :: rest =>
          (members? fuel rest).map fun (members, rest) => (Datum.ofMembers members, rest)
      | _ => none

/-- The items of a list up to its closing bracket, at least one. -/
def items? : Nat → List Token → Option (List Datum × List Token)
  | 0, _ => none
  | fuel + 1, tokens =>
      match value? fuel tokens with
      | none => none
      | some (d, .listClose :: rest) => some ([d], rest)
      | some (d, .comma :: rest) =>
          (items? fuel rest).map fun (items, rest) => (d :: items, rest)
      | some _ => none

/-- The members of a record up to its closing brace, at least one. -/
def members? : Nat → List Token → Option (List (String × Datum) × List Token)
  | 0, _ => none
  | fuel + 1, tokens =>
      match tokens with
      | .scalar (.text name) :: .colon :: rest =>
          match value? fuel rest with
          | none => none
          | some (d, .recordClose :: rest) => some ([(name, d)], rest)
          | some (d, .comma :: rest) =>
              (members? fuel rest).map fun (members, rest) => ((name, d) :: members, rest)
          | some _ => none
      | _ => none

end

/-- How many lists and records may stand inside each other. -/
def maxDepth : Nat := 127

/-- Whether at most `left` brackets stand open at once. -/
def nestsWithin (left : Nat) : List Token → Bool
  | [] => true
  | .listOpen :: rest | .recordOpen :: rest =>
      match left with
      | 0 => false
      | n + 1 => nestsWithin n rest
  | .listClose :: rest | .recordClose :: rest => nestsWithin (left + 1) rest
  | .comma :: rest | .colon :: rest | .scalar _ :: rest => nestsWithin left rest

/-- The value that a text denotes, if it is a JSON text. -/
def parse? (s : String) : Option Datum :=
  match Token.scan s.toList with
  | none => none
  | some tokens =>
      if nestsWithin maxDepth tokens then
        match value? (tokens.length + 1) tokens with
        | some (d, []) => some d
        | _ => none
      else none

/-! ## Writing -/

def hexDigit (n : Nat) : Char :=
  if n < 10 then Char.ofNat (48 + n) else Char.ofNat (87 + n)

def escaped (c : Char) : List Char :=
  match c with
  | '\x22' => ['\x5c', '\x22']
  | '\x5c' => ['\x5c', '\x5c']
  | '\n' => ['\x5c', 'n']
  | '\r' => ['\x5c', 'r']
  | '\t' => ['\x5c', 't']
  | '\x08' => ['\x5c', 'b']
  | '\x0c' => ['\x5c', 'f']
  | _ =>
      if c.toNat < 0x20 then
        ['\x5c', 'u', '0', '0', hexDigit (c.toNat / 16), hexDigit (c.toNat % 16)]
      else [c]

def text (s : String) : String :=
  String.ofList ('\x22' :: s.toList.flatMap escaped ++ ['\x22'])

def real (negative : Bool) (mantissa : Nat) (exponent : Int) : String :=
  (if negative then "-" else "") ++ toString mantissa ++ "e" ++ toString exponent

mutual

def render : Datum → String
  | .null => "null"
  | .bool b => if b then "true" else "false"
  | .int i => toString i
  | .real negative mantissa exponent => real negative mantissa exponent
  | .limit s | .text s | .moment s => text s
  | .list items => "[" ++ renderItems items ++ "]"
  | .record members => "\x7b" ++ renderMembers members ++ "\x7d"

def renderItems : List Datum → String
  | [] => ""
  | [d] => render d
  | d :: e :: rest => render d ++ "," ++ renderItems (e :: rest)

def renderMembers : List (String × Datum) → String
  | [] => ""
  | [(n, d)] => text n ++ ":" ++ render d
  | (n, d) :: e :: rest => text n ++ ":" ++ render d ++ "," ++ renderMembers (e :: rest)

end

def indent (depth : Nat) : String :=
  "\n" ++ String.ofList (List.replicate (2 * depth) ' ')

mutual

/-- The text with one item or member to a line, `depth` levels in. -/
def prettyAt (depth : Nat) : Datum → String
  | .list [] => "[]"
  | .list (d :: items) =>
      "[" ++ prettyItems (depth + 1) (d :: items) ++ indent depth ++ "]"
  | .record [] => "\x7b\x7d"
  | .record (m :: members) =>
      "\x7b" ++ prettyMembers (depth + 1) (m :: members) ++ indent depth ++ "\x7d"
  | d => render d

def prettyItems (depth : Nat) : List Datum → String
  | [] => ""
  | [d] => indent depth ++ prettyAt depth d
  | d :: e :: rest => indent depth ++ prettyAt depth d ++ "," ++ prettyItems depth (e :: rest)

def prettyMembers (depth : Nat) : List (String × Datum) → String
  | [] => ""
  | [(n, d)] => indent depth ++ text n ++ ": " ++ prettyAt depth d
  | (n, d) :: e :: rest =>
      indent depth ++ text n ++ ": " ++ prettyAt depth d ++ "," ++ prettyMembers depth (e :: rest)

end

def pretty (d : Datum) : String :=
  prettyAt 0 d

end Reconcile.Data.Json
