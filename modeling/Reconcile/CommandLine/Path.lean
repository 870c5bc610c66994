/-!
# Paths

A path is a text whose parts stand between slashes.  Empty parts and single dots lead
nowhere, so they do not count at the end of a path.  The last part names a file
unless it leads upwards; what follows its last dot is its extension, but a dot in
front of everything else only hides the file.
-/

namespace Reconcile.Path

def splitSlash : List Char → List (List Char)
  | [] => [[]]
  | c :: cs =>
      if c = '/' then [] :: splitSlash cs
      else match splitSlash cs with
        | [] => [[c]]
        | part :: parts => (c :: part) :: parts

/-- The parts between slashes, at least one. -/
def parts (path : String) : List String :=
  (splitSlash path.toList).map String.ofList

/-- Whether a part leads nowhere. -/
def isIdle (part : String) : Bool :=
  part.isEmpty || part == "."

/-- The parts without those at the end that lead nowhere. -/
def dropIdle (parts : List String) : List String :=
  (parts.reverse.dropWhile isIdle).reverse

def joinParts (parts : List String) : String :=
  "/".intercalate parts

/-- The directory that a path lies in, empty where the path does not say. -/
def parent (path : String) : String :=
  let above := (dropIdle (parts path)).dropLast
  match dropIdle above with
  | [] => match above.head? with
      | some "" => "/"
      | some part => part
      | none => ""
  | kept => joinParts kept

/-- A path inside a directory. -/
def join (directory name : String) : String :=
  if directory.isEmpty then name
  else if directory.endsWith "/" then directory ++ name
  else directory ++ "/" ++ name

/-- A file's name without its extension and the dot before that. -/
def stemChars (name : List Char) : List Char :=
  match name.reverse.dropWhile (· != '.') with
  | [] => name
  | _ :: before => if before.isEmpty then name else before.reverse

/-- The path with another extension for its file's, or the same path where it names no
file. -/
def withExtension (extension path : String) : String :=
  let kept := dropIdle (parts path)
  match kept.getLast? with
  | none => path
  | some ".." => path
  | some name =>
      joinParts (kept.dropLast ++
        [String.ofList (stemChars name.toList) ++ "." ++ extension])

end Reconcile.Path
