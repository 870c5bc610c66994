/-!
# Blanks

White space is the Unicode property `White_Space`, all twenty-five characters
of it, since stored definitions and catalog spellings carry the wide ones too.
Trimming removes it at the ends of a text and never touches the inside.
-/

namespace Reconcile.Text

/-- The characters of the Unicode property `White_Space`. -/
def isBlank (c : Char) : Bool :=
  let n := c.toNat
  (9 ≤ n && n ≤ 13) || n == 0x20 || n == 0x85 || n == 0xA0 || n == 0x1680
    || (0x2000 ≤ n && n ≤ 0x200A) || n == 0x2028 || n == 0x2029 || n == 0x202F
    || n == 0x205F || n == 0x3000

/-- Drops the longest end of the list whose members all satisfy `p`. -/
def dropEndWhile {α : Type} (p : α → Bool) (xs : List α) : List α :=
  (xs.reverse.dropWhile p).reverse

/-- The text without white space at its ends. -/
def trimChars (cs : List Char) : List Char :=
  dropEndWhile isBlank (cs.dropWhile isBlank)

def trim (s : String) : String :=
  String.ofList (trimChars s.toList)

/-- Every run of white space becomes one space, and none is left at the ends. -/
def squeezeChars : List Char → List Char
  | [] => []
  | c :: cs =>
      if isBlank c then
        match squeezeChars cs with
        | [] => []
        | d :: rest => if d = ' ' then d :: rest else ' ' :: d :: rest
      else c :: squeezeChars cs

def squeeze (s : String) : String :=
  String.ofList ((squeezeChars s.toList).dropWhile (· == ' '))

end Reconcile.Text
