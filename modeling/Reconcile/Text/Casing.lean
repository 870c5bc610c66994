/-!
# Letter case

Catalogs spell keywords in either case, so names of types, engines and rules are
compared with ASCII letters folded.  Where a whole word is looked up in upper or
lower case the Unicode mappings count as well, but only so far as they lead into
ASCII: `upperChars` and `lowerChars` are exact on every character whose mapped
form is ASCII, and leave all others as they are, which no ASCII word contains.
-/

namespace Reconcile.Text

/-- Equality with ASCII letters folded and all other characters exact. -/
def sameFolded (a b : String) : Bool :=
  a.toList.map Char.toLower == b.toList.map Char.toLower

/-- Upper-case form of one character, where that form is ASCII.  The sharp s, the
dotless i, the long s and the Latin ligatures are the characters outside ASCII
that have one. -/
def upperForm (c : Char) : List Char :=
  match c.toNat with
  | 0xDF => ['S', 'S']
  | 0x131 => ['I']
  | 0x17F => ['S']
  | 0xFB00 => ['F', 'F']
  | 0xFB01 => ['F', 'I']
  | 0xFB02 => ['F', 'L']
  | 0xFB03 => ['F', 'F', 'I']
  | 0xFB04 => ['F', 'F', 'L']
  | 0xFB05 => ['S', 'T']
  | 0xFB06 => ['S', 'T']
  | _ => [c.toUpper]

/-- Lower-case form of one character, where that form starts in ASCII: the Kelvin
sign and the dotted capital I, which keeps its dot as a combining mark. -/
def lowerForm (c : Char) : List Char :=
  match c.toNat with
  | 0x212A => ['k']
  | 0x130 => ['i', Char.ofNat 0x307]
  | _ => [c.toLower]

def upperChars (s : String) : List Char :=
  s.toList.flatMap upperForm

def lowerChars (s : String) : List Char :=
  s.toList.flatMap lowerForm

/-- Whether `part` occurs in `whole` without a gap. -/
def occursIn (part : List Char) : List Char → Bool
  | [] => part.isEmpty
  | c :: cs => part.isPrefixOf (c :: cs) || occursIn part cs

end Reconcile.Text
