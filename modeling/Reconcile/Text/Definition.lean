import Reconcile.Text.Blank
/-!
# Stored definitions

Two engines, or two clients of one, store the same view with different line ends
and trailing blanks.  The canonical form of a definition has `\n` at the end of
every line, no space or tab before it, and no white space at either end; two
definitions are the same when their canonical forms are.
-/

namespace Reconcile.Text

/-- CR LF and a lone CR both end a line, as LF does. -/
def unifyLineEnds : List Char → List Char
  | [] => []
  | '\r' :: '\n' :: cs => '\n' :: unifyLineEnds cs
  | c :: cs => (if c = '\r' then '\n' else c) :: unifyLineEnds cs

/-- Spaces and tabs; other white space at the end of a line stays. -/
def isLineBlank (c : Char) : Bool :=
  c == ' ' || c == '\t'

/-- Drops the spaces and tabs that stand before a line feed. -/
def dropLineBlanks : List Char → List Char
  | [] => []
  | c :: cs =>
      let rest := dropLineBlanks cs
      if isLineBlank c && rest.head? == some '\n' then rest else c :: rest

def canonicalChars (cs : List Char) : List Char :=
  trimChars (dropLineBlanks (unifyLineEnds cs))

/-- The canonical form of a stored definition. -/
def canonical (definition : String) : String :=
  String.ofList (canonicalChars definition.toList)

def sameDefinition (a b : String) : Bool :=
  canonical a == canonical b

end Reconcile.Text
