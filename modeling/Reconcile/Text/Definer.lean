import Reconcile.Text.Blank
/-!
# The DEFINER clause

MySQL answers `SHOW CREATE` with the account that defined a routine, as
`DEFINER=user@host` after white space.  The account is no part of the routine, so
the first such clause is cut out together with the white space before it.  Each of
the two names is quoted with backquotes or single quotes, neither of which may
occur inside it, or bare: a bare user runs to the `@`, a bare host to the next
white space.
-/

namespace Reconcile.Text

/-- The rest after `word`, whose letters are matched in either case. -/
def dropWord? : List Char → List Char → Option (List Char)
  | [], cs => some cs
  | _ :: _, [] => none
  | w :: ws, c :: cs => if c.toLower = w then dropWord? ws cs else none

/-- The rest after a text between two `q` that holds no `q`. -/
def dropBetween? (q : Char) : List Char → Option (List Char)
  | [] => none
  | c :: cs =>
      if c = q then
        match cs.dropWhile (· != q) with
        | [] => none
        | _ :: rest => some rest
      else none

def dropChar? (q : Char) : List Char → Option (List Char)
  | [] => none
  | c :: cs => if c = q then some cs else none

/-- The rest after a longest run of characters that satisfy `p`, if there is one. -/
def dropRun? (p : Char → Bool) (cs : List Char) : Option (List Char) :=
  match cs with
  | [] => none
  | c :: rest => if p c then some (rest.dropWhile p) else none

/-- The rest after a user name, in each way that one may be written. -/
def dropUser : List (List Char → Option (List Char)) :=
  [dropBetween? '\x60', dropBetween? '\x27', dropRun? fun c => !isBlank c && c != '@']

/-- The rest after a host name. -/
def dropHost? (cs : List Char) : Option (List Char) :=
  dropBetween? '\x60' cs <|> dropBetween? '\x27' cs <|> dropRun? (fun c => !isBlank c) cs

/-- The rest after an account: a user name is read in the first way that leaves an `@`
and a host name behind it. -/
def dropAccount? (cs : List Char) : Option (List Char) :=
  dropUser.findSome? fun drop => ((drop cs).bind (dropChar? '@')).bind dropHost?

/-- The rest after a clause at the front, its leading white space included. -/
def dropDefiner? (cs : List Char) : Option (List Char) := do
  let cs ← dropRun? isBlank cs
  let cs ← dropWord? "definer".toList cs
  let cs ← dropChar? '=' (cs.dropWhile isBlank)
  dropAccount? (cs.dropWhile isBlank)

def stripDefinerChars : List Char → List Char
  | [] => []
  | c :: cs =>
      match dropDefiner? (c :: cs) with
      | some rest => rest
      | none => c :: stripDefinerChars cs

/-- The definition without its first DEFINER clause. -/
def stripDefiner (definition : String) : String :=
  String.ofList (stripDefinerChars definition.toList)

end Reconcile.Text
