import Reconcile.Data.Datum
/-!
# JSON tokens

A JSON text is first cut into tokens; white space between them is dropped.  Texts
are read with their escapes resolved, so a pair of surrogate escapes is one
character and a surrogate that stands alone is refused, as is a control character
that was not escaped.  A number without fraction and exponent is an integer of any
size; every other number keeps its decimal digits.  A number beyond the range of
double precision is refused, and `-0` is not an integer.
-/

namespace Reconcile.Data

inductive Token where
  | listOpen
  | listClose
  | recordOpen
  | recordClose
  | comma
  | colon
  /-- Null, a truth value, a number or a text. -/
  | scalar (value : Datum)
deriving Inhabited, Repr

namespace Token

def digitValue? (c : Char) : Option Nat :=
  if '0' ≤ c ∧ c ≤ '9' then some (c.toNat - 48) else none

def hexValue? (c : Char) : Option Nat :=
  if '0' ≤ c ∧ c ≤ '9' then some (c.toNat - 48)
  else if 'a' ≤ c ∧ c ≤ 'f' then some (c.toNat - 87)
  else if 'A' ≤ c ∧ c ≤ 'F' then some (c.toNat - 55)
  else none

/-- The value of four hexadecimal digits. -/
def unit? (a b c d : Char) : Option Nat := do
  return ((← hexValue? a) * 16 + (← hexValue? b)) * 256
    + (← hexValue? c) * 16 + (← hexValue? d)

def simpleEscape? (c : Char) : Option Char :=
  match c with
  | '\x22' => some '\x22'
  | '\x5c' => some '\x5c'
  | '/' => some '/'
  | 'b' => some '\x08'
  | 'f' => some '\x0c'
  | 'n' => some '\n'
  | 'r' => some '\r'
  | 't' => some '\t'
  | _ => none

/-- The characters up to the closing quote, in reverse onto `acc`, and what follows. -/
def readText (acc : List Char) : List Char → Option (List Char × List Char)
  | [] => none
  | '\x22' :: cs => some (acc.reverse, cs)
  | '\x5c' :: 'u' :: a :: b :: c :: d :: cs =>
      match unit? a b c d with
      | none => none
      | some high =>
          if 0xD800 ≤ high ∧ high < 0xDC00 then
            match cs with
            | '\x5c' :: 'u' :: e :: f :: g :: h :: rest =>
                match unit? e f g h with
                | none => none
                | some low =>
                    if 0xDC00 ≤ low ∧ low < 0xE000 then
                      readText
                        (Char.ofNat (0x10000 + (high - 0xD800) * 1024 + (low - 0xDC00)) :: acc)
                        rest
                    else none
            | _ => none
          else if 0xDC00 ≤ high ∧ high < 0xE000 then none
          else readText (Char.ofNat high :: acc) cs
  | '\x5c' :: c :: cs =>
      match simpleEscape? c with
      | none => none
      | some d => readText (d :: acc) cs
  | c :: cs => if c.toNat < 0x20 then none else readText (c :: acc) cs

/-- The digits at the front, as the number `acc` continued by them, with their
count, and what follows. -/
def readDigits (acc count : Nat) : List Char → Nat × Nat × List Char
  | [] => (acc, count, [])
  | c :: cs =>
      match digitValue? c with
      | some d => readDigits (acc * 10 + d) (count + 1) cs
      | none => (acc, count, c :: cs)

/-- The exponent after `e`, and what follows. -/
def readExponent? (cs : List Char) : Option (Int × List Char) :=
  let (negative, cs) :=
    match cs with
    | '-' :: rest => (true, rest)
    | '+' :: rest => (false, rest)
    | _ => (false, cs)
  match readDigits 0 0 cs with
  | (_, 0, _) => none
  | (n, _, rest) => some (if negative then -(n : Int) else n, rest)

/-- The least number that rounds to more than every double. -/
def tooLarge : Nat :=
  (Nat.pow 2 54 - 1) * Nat.pow 2 970

/-- Whether `mantissa * 10 ^ exponent` rounds to more than every double. -/
def overflows (mantissa : Nat) (exponent : Int) : Bool :=
  if mantissa = 0 then false
  else if exponent > 400 then true
  else
    match exponent with
    | .ofNat e => decide (tooLarge ≤ mantissa * Nat.pow 10 e)
    | .negSucc e =>
        if e > 400 + (toString mantissa).length then false
        else decide (tooLarge * Nat.pow 10 (e + 1) ≤ mantissa)

def real? (negative : Bool) (mantissa : Nat) (exponent : Int) : Option Datum :=
  if overflows mantissa exponent then none else some (.real negative mantissa exponent)

/-- A number, after its sign. -/
def readUnsigned? (negative : Bool) (cs : List Char) : Option (Datum × List Char) :=
  let (whole, count, rest) := readDigits 0 0 cs
  if count = 0 ∨ (1 < count ∧ cs.head? = some '0') then none
  else
    match rest with
    | '.' :: rest =>
        match readDigits whole 0 rest with
        | (_, 0, _) => none
        | (digits, places, rest) =>
            match rest with
            | c :: rest' =>
                if c = 'e' ∨ c = 'E' then do
                  let (e, rest) ← readExponent? rest'
                  return (← real? negative digits (e - places), rest)
                else do return (← real? negative digits (-(places : Int)), rest)
            | [] => do return (← real? negative digits (-(places : Int)), [])
    | c :: rest' =>
        if c = 'e' ∨ c = 'E' then do
          let (e, rest) ← readExponent? rest'
          return (← real? negative whole e, rest)
        else if negative then
          some (if whole = 0 then .real true 0 0 else .int (-(whole : Int)), rest)
        else some (.int whole, rest)
    | [] =>
        if negative then some (if whole = 0 then .real true 0 0 else .int (-(whole : Int)), [])
        else some (.int whole, [])

def readNumber? : List Char → Option (Datum × List Char)
  | '-' :: cs => readUnsigned? true cs
  | cs => readUnsigned? false cs

def isSpace (c : Char) : Bool :=
  c == ' ' || c == '\n' || c == '\r' || c == '\t'

/-- The tokens of a text of at most `fuel` characters. -/
def scanWithin : Nat → List Char → Option (List Token)
  | 0, [] => some []
  | 0, _ :: _ => none
  | _ + 1, [] => some []
  | fuel + 1, c :: cs =>
      match c with
      | '[' => (scanWithin fuel cs).map (listOpen :: ·)
      | ']' => (scanWithin fuel cs).map (listClose :: ·)
      | '\x7b' => (scanWithin fuel cs).map (recordOpen :: ·)
      | '\x7d' => (scanWithin fuel cs).map (recordClose :: ·)
      | ',' => (scanWithin fuel cs).map (comma :: ·)
      | ':' => (scanWithin fuel cs).map (colon :: ·)
      | '\x22' =>
          match readText [] cs with
          | none => none
          | some (s, rest) =>
              (scanWithin fuel rest).map (scalar (.text (String.ofList s)) :: ·)
      | 'n' =>
          match cs with
          | 'u' :: 'l' :: 'l' :: rest => (scanWithin fuel rest).map (scalar .null :: ·)
          | _ => none
      | 't' =>
          match cs with
          | 'r' :: 'u' :: 'e' :: rest => (scanWithin fuel rest).map (scalar (.bool true) :: ·)
          | _ => none
      | 'f' =>
          match cs with
          | 'a' :: 'l' :: 's' :: 'e' :: rest =>
              (scanWithin fuel rest).map (scalar (.bool false) :: ·)
          | _ => none
      | _ =>
          if isSpace c then scanWithin fuel cs
          else
            match readNumber? (c :: cs) with
            | none => none
            | some (d, rest) => (scanWithin fuel rest).map (scalar d :: ·)

def scan (cs : List Char) : Option (List Token) :=
  scanWithin cs.length cs

end Token

end Reconcile.Data
