/-!
# Replacing and joining

`removeAll part` takes out every occurrence of `part`, found from the left and
without overlaps; what closes up around a removed part is not looked at again.
-/

namespace Reconcile.Text

/-- `skip` characters of an occurrence that was just found are still to be passed. -/
def removeFrom (part : List Char) (skip : Nat) : List Char → List Char
  | [] => []
  | c :: cs =>
      match skip with
      | n + 1 => removeFrom part n cs
      | 0 =>
          if part.isPrefixOf (c :: cs) then removeFrom part (part.length - 1) cs
          else c :: removeFrom part 0 cs

/-- The text without the occurrences of `part`, which is not empty. -/
def removeAll (part text : String) : String :=
  String.ofList (removeFrom part.toList 0 text.toList)

def joined (separator : String) (parts : List String) : String :=
  separator.intercalate parts

end Reconcile.Text
