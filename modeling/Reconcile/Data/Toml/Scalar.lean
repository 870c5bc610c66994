import Reconcile.Data.Token
/-!
# TOML scalars

Texts in their four spellings, and the words that stand for truth values, numbers,
dates and times.  Line ends are line feeds here.  A number without fraction and
exponent is an integer of sixty-four bits; a date names a day that exists.
-/

namespace Reconcile.Data.Toml

def isBlank (c : Char) : Bool :=
  c == ' ' || c == '\t'

def skipBlanks (cs : List Char) : List Char :=
  cs.dropWhile isBlank

/-- What may stand in a comment or in a text on one line. -/
def isPlain (c : Char) : Bool :=
  c == '\t' || (0x20 ≤ c.toNat && c.toNat != 0x7F)

/-! ## Texts -/

def simpleEscape? (c : Char) : Option Char :=
  if c = '/' then none else Token.simpleEscape? c

/-- The character of a code point, unless it is a surrogate or out of range. -/
def scalar? (n : Nat) : Option Char :=
  if n < 0xD800 ∨ (0xE000 ≤ n ∧ n < 0x110000) then some (Char.ofNat n) else none

/-- Where the reader of a text with escapes stands. -/
inductive Stand where
  | text
  /-- After a backslash. -/
  | escape
  /-- Inside a code point, with so many digits to come. -/
  | digits (left value : Nat)
  /-- Inside white space that a backslash at the end of a line takes away. -/
  | folded (left : Nat)

/-- The stand after a character of an escape, and the character that the escape
denotes once it is complete. -/
def escapeStep? (c : Char) : Stand → Option (Stand × Option Char)
  | .escape =>
      if c = 'u' then some (.digits 4 0, none)
      else if c = 'U' then some (.digits 8 0, none)
      else (simpleEscape? c).map fun d => (.text, some d)
  | .digits left value =>
      match Token.hexValue? c with
      | none => none
      | some d =>
          if left ≤ 1 then (scalar? (value * 16 + d)).map fun d => (.text, some d)
          else some (.digits (left - 1) (value * 16 + d), none)
  | .folded left => some (if left ≤ 1 then .text else .folded (left - 1), none)
  | .text => none

def onto (acc : List Char) : Option Char → List Char
  | some c => c :: acc
  | none => acc

/-- The text up to its closing quote, in reverse onto `acc`, and what follows. -/
def readBasic (acc : List Char) : Stand → List Char → Option (String × List Char)
  | _, [] => none
  | .text, c :: cs =>
      if c = '\x22' then some (String.ofList acc.reverse, cs)
      else if c = '\x5c' then readBasic acc .escape cs
      else if isPlain c then readBasic (c :: acc) .text cs
      else none
  | stand, c :: cs =>
      match escapeStep? c stand with
      | none => none
      | some (stand, d) => readBasic (onto acc d) stand cs

/-- The text up to its closing apostrophe, and what follows. -/
def readLiteral (acc : List Char) : List Char → Option (String × List Char)
  | [] => none
  | c :: cs =>
      if c = '\x27' then some (String.ofList acc.reverse, cs)
      else if isPlain c then readLiteral (c :: acc) cs
      else none

/-- Three quotes at the front, the one or two more that belong to the text before
them, and what follows. -/
def closing? (q : Char) : List Char → Option (List Char × List Char)
  | a :: b :: c :: rest =>
      if a = q ∧ b = q ∧ c = q then
        let extra := (rest.take 2).takeWhile (· == q)
        some (extra, rest.drop extra.length)
      else none
  | _ => none

/-- How much white space a backslash before `cs` takes away, if a line ends there. -/
def folding? (cs : List Char) : Option Nat :=
  match skipBlanks cs with
  | '\n' :: _ => some (cs.takeWhile fun c => isBlank c || c == '\n').length
  | _ => none

def readLongBasic (acc : List Char) : Stand → List Char → Option (String × List Char)
  | _, [] => none
  | .text, c :: cs =>
      match closing? '\x22' (c :: cs) with
      | some (extra, rest) => some (String.ofList (acc.reverse ++ extra), rest)
      | none =>
          if c = '\x5c' then
            match folding? cs with
            | some n => readLongBasic acc (.folded n) cs
            | none => readLongBasic acc .escape cs
          else if isPlain c ∨ c = '\n' then readLongBasic (c :: acc) .text cs
          else none
  | stand, c :: cs =>
      match escapeStep? c stand with
      | none => none
      | some (stand, d) => readLongBasic (onto acc d) stand cs

def readLongLiteral (acc : List Char) : List Char → Option (String × List Char)
  | [] => none
  | c :: cs =>
      match closing? '\x27' (c :: cs) with
      | some (extra, rest) => some (String.ofList (acc.reverse ++ extra), rest)
      | none =>
          if isPlain c ∨ c = '\n' then readLongLiteral (c :: acc) cs else none

/-- A line feed right after the opening quotes does not count. -/
def dropFirstLineEnd : List Char → List Char
  | '\n' :: cs => cs
  | cs => cs

/-- A text in one of its spellings, at its opening quote. -/
def text? : List Char → Option (String × List Char)
  | '\x22' :: '\x22' :: '\x22' :: cs => readLongBasic [] .text (dropFirstLineEnd cs)
  | '\x27' :: '\x27' :: '\x27' :: cs => readLongLiteral [] (dropFirstLineEnd cs)
  | '\x22' :: cs => readBasic [] .text cs
  | '\x27' :: cs => readLiteral [] cs
  | _ => none

/-! ## Numbers -/

/-- The digits of a run in which single underscores may stand between digits. -/
def digitRun? (digit? : Char → Option Nat) : List Char → Option (List Nat)
  | [] => none
  | [c] => (digit? c).map ([·])
  | c :: '_' :: cs => do return (← digit? c) :: (← digitRun? digit? cs)
  | c :: d :: cs => do return (← digit? c) :: (← digitRun? digit? (d :: cs))

def natOf (base : Nat) (digits : List Nat) : Nat :=
  digits.foldl (fun n d => n * base + d) 0

def digitBelow (base : Nat) (c : Char) : Option Nat :=
  (Token.hexValue? c).filter (· < base)

def decimalRun? : List Char → Option (List Nat) :=
  digitRun? (digitBelow 10)

/-- Whether there is a minus sign, and what follows a sign. -/
def signed : List Char → Bool × List Char
  | '-' :: cs => (true, cs)
  | '+' :: cs => (false, cs)
  | cs => (false, cs)

/-- Digits that do not start with an idle zero. -/
def wholeRun? (cs : List Char) : Option (List Nat) :=
  (decimalRun? cs).filter fun digits => digits.length = 1 ∨ digits.head? ≠ some 0

def inRange? (n : Int) : Option Datum :=
  if Int64.minValue.toInt ≤ n ∧ n ≤ Int64.maxValue.toInt then some (.int n) else none

def integer? (word : List Char) : Option Datum :=
  match word with
  | '0' :: 'x' :: cs => (digitRun? (digitBelow 16) cs).bind fun ds => inRange? (natOf 16 ds)
  | '0' :: 'o' :: cs => (digitRun? (digitBelow 8) cs).bind fun ds => inRange? (natOf 8 ds)
  | '0' :: 'b' :: cs => (digitRun? (digitBelow 2) cs).bind fun ds => inRange? (natOf 2 ds)
  | _ =>
      let (negative, cs) := signed word
      (wholeRun? cs).bind fun ds =>
        let n : Int := natOf 10 ds
        inRange? (if negative then -n else n)

def exponent? (cs : List Char) : Option Int :=
  let (negative, cs) := signed cs
  (decimalRun? cs).map fun ds =>
    let n : Int := natOf 10 ds
    if negative then -n else n

/-- A number with a fraction, an exponent or both.  One too large for double precision
is refused unless it is negative. -/
def real? (word : List Char) : Option Datum :=
  let (negative, cs) := signed word
  let isMark := fun (c : Char) => c == 'e' || c == 'E'
  let mantissa := cs.takeWhile fun c => !isMark c
  let power : Option Int :=
    match cs.dropWhile fun c => !isMark c with
    | [] => some 0
    | _ :: digits => exponent? digits
  let whole := mantissa.takeWhile (· != '.')
  let places : Option (List Nat) :=
    match mantissa.dropWhile (· != '.') with
    | [] => if mantissa.length = cs.length then none else some []
    | _ :: digits => decimalRun? digits
  match wholeRun? whole, places, power with
  | some whole, some places, some power =>
      let value := natOf 10 (whole ++ places)
      let exponent := power - places.length
      if !negative && Token.overflows value exponent then none
      else some (.real negative value exponent)
  | _, _, _ => none

/-! ## Dates and times -/

def isLeap (year : Nat) : Bool :=
  year % 4 == 0 && (year % 100 != 0 || year % 400 == 0)

def daysIn (year month : Nat) : Nat :=
  match month with
  | 2 => if isLeap year then 29 else 28
  | 4 | 6 | 9 | 11 => 30
  | _ => 31

/-- The number that decimal digits alone write. -/
def plain? (cs : List Char) : Option Nat :=
  if cs.isEmpty then none
  else (cs.mapM (digitBelow 10)).map (natOf 10)

def isDate (word : List Char) : Bool :=
  match word with
  | [a, b, c, d, '-', e, f, '-', g, h] =>
      match plain? [a, b, c, d], plain? [e, f], plain? [g, h] with
      | some year, some month, some day =>
          1 ≤ month && month ≤ 12 && 1 ≤ day && day ≤ daysIn year month
      | _, _, _ => false
  | _ => false

/-- Hours and minutes. -/
def isClock (word : List Char) : Bool :=
  match word with
  | [a, b, ':', c, d] =>
      match plain? [a, b], plain? [c, d] with
      | some hour, some minute => hour ≤ 23 && minute ≤ 59
      | _, _ => false
  | _ => false

def isSeconds (word : List Char) : Bool :=
  match word with
  | ':' :: a :: b :: rest =>
      (plain? [a, b]).any (· ≤ 60)
        && match rest with
          | [] => true
          | '.' :: digits => (plain? digits).isSome
          | _ => false
  | _ => false

def isTime (word : List Char) : Bool :=
  isClock (word.take 5) && isSeconds (word.drop 5)

def isOffset (word : List Char) : Bool :=
  match word with
  | ['Z'] | ['z'] => true
  | c :: clock => (c == '+' || c == '-') && isClock clock
  | [] => false

/-- A time, with an offset from universal time or without. -/
def isTimeOfDay (word : List Char) : Bool :=
  isTime word
    || (isTime word.dropLast && isOffset (word.drop (word.length - 1)))
    || (isTime (word.take (word.length - 6)) && isOffset (word.drop (word.length - 6)))

def isMoment (word : List Char) : Bool :=
  isDate word || isTime word
    || (isDate (word.take 10) && isTimeOfDay (word.drop 11)
        && (word[10]? == some 'T' || word[10]? == some 't'))

/-! ## Words -/

/-- What a bare word denotes. -/
def word? (word : List Char) : Option Datum :=
  if word = "true".toList then some (.bool true)
  else if word = "false".toList then some (.bool false)
  else if isMoment word then some (.moment (String.ofList word))
  else if ["inf".toList, "nan".toList].contains (signed word).2 then
    some (.limit (String.ofList word))
  else integer? word <|> real? word

/-- Where a bare word ends. -/
def endsWord (c : Char) : Bool :=
  c == ' ' || c == '\t' || c == '\n' || c == ',' || c == ']' || c == '\x7d' || c == '#'

/-- A bare word, or a date and a time with a space between them. -/
def bare? (cs : List Char) : Option (Datum × List Char) :=
  let word := cs.takeWhile fun c => !endsWord c
  let rest := cs.dropWhile fun c => !endsWord c
  let time := (rest.drop 1).takeWhile fun c => !endsWord c
  if isDate word && rest.head? == some ' ' && isTimeOfDay time then
    some (.moment (String.ofList (word ++ ' ' :: time)), rest.drop (1 + time.length))
  else (word? word).map fun d => (d, rest)

end Reconcile.Data.Toml
