/-!
# Quoted text

A quoted text stands between an opening and a closing character, and a closing
character inside it is written twice.  `enclose` writes that form and `enclosed?`
reads it back from the front of a longer text, leaving what follows.
-/

namespace Reconcile.Text

/-- Writes every occurrence of `q` twice. -/
def double (q : Char) : List Char → List Char
  | [] => []
  | c :: cs => if c = q then q :: q :: double q cs else c :: double q cs

def encloseChars (opening closing : Char) (cs : List Char) : List Char :=
  opening :: double closing cs ++ [closing]

/-- The text between `opening` and `closing`, with `closing` doubled inside. -/
def enclose (opening closing : Char) (s : String) : String :=
  String.ofList (encloseChars opening closing s.toList)

/-- The content up to a closing character that stands alone, and what follows. -/
def untilClosing? (q : Char) : List Char → Option (List Char × List Char)
  | [] => none
  | c :: cs =>
      if c = q then
        match cs with
        | [] => some ([], [])
        | d :: ds =>
            if d = q then (untilClosing? q ds).map fun (inner, rest) => (q :: inner, rest)
            else some ([], d :: ds)
      else (untilClosing? q cs).map fun (inner, rest) => (c :: inner, rest)

/-- One quoted text at the front of `cs`, read with doubled closing characters
standing for one. -/
def enclosed? (opening closing : Char) : List Char → Option (List Char × List Char)
  | [] => none
  | c :: cs => if c = opening then untilClosing? closing cs else none

/-- A string as an SQL literal: single quotes around it, and those inside twice. -/
def literal (s : String) : String :=
  enclose '\x27' '\x27' s

end Reconcile.Text
