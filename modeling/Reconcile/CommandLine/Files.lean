import Reconcile.CommandLine.Disk
import Reconcile.CommandLine.Path
/-!
# Files in memory

`Files` is a tree of directories and texts together with the working directory.  A path
is walked part by part: each part is looked up in the directory that was reached, so a
part that leads upwards does so from there, and only from a directory that exists.

The last part of a path that makes an entry need not exist.  It names an entry only if it
leads neither nowhere nor upwards; slashes may follow it where a directory is made.
-/

namespace Reconcile

inductive Entry where
  | text (content : String)
  | directory (entries : List (String × Entry))
deriving Inhabited, Repr

/-- Where an entry is: the names of the directories from the root to it and its own. -/
abbrev Location : Type := List String

/-- The entries on the way from the root to where a walk has come, the last in front. -/
abbrev Trail : Type := List (String × Entry)

def Trail.location (t : Trail) : Location :=
  (t.map Prod.fst).reverse

namespace Entry

/-- Puts an entry in place of one of the same name, or else at the end. -/
def set (name : String) (e : Entry) : List (String × Entry) → List (String × Entry)
  | [] => [(name, e)]
  | (n, old) :: rest => if n = name then (n, e) :: rest else (n, old) :: set name e rest

/-- Puts an entry at a location, in directories that are made if they are missing. -/
def put : Entry → Location → Entry → Entry
  | _, [], new => new
  | .directory entries, name :: below, new =>
      .directory (set name (put ((entries.lookup name).getD (.directory [])) below new) entries)
  | .text content, _ :: _, _ => .text content

/-- What is at a location. -/
def find? : Entry → Location → Option Entry
  | e, [] => some e
  | .directory entries, name :: below => (entries.lookup name).bind fun e => e.find? below
  | .text _, _ :: _ => none

mutual

/-- All texts and where they are. -/
def texts : Entry → List (Location × String)
  | .text content => [([], content)]
  | .directory entries => textsIn entries

def textsIn : List (String × Entry) → List (Location × String)
  | [] => []
  | (name, e) :: rest => (texts e).map (fun (l, s) => (name :: l, s)) ++ textsIn rest

end

end Entry

structure Files where
  root : Entry
  /-- The working directory. -/
  home : Location
deriving Inhabited, Repr

namespace Files

/-- An empty working directory, and the directories that it lies in. -/
def empty (home : Location) : Files :=
  { root := (Entry.directory []).put home (.directory []), home := home }

def put (files : Files) (l : Location) (e : Entry) : Files :=
  { files with root := files.root.put l e }

/-- The texts in the working directory. -/
def texts (files : Files) : List (Location × String) :=
  ((files.root.find? files.home).map Entry.texts).getD []

/-! ## Walks -/

/-- The most bytes that a name has. -/
def maxName : Nat := 255

/-- The most bytes that a path has. -/
def maxPath : Nat := 4095

def current (files : Files) : Trail → Entry
  | [] => files.root
  | (_, e) :: _ => e

/-- The entries of the directory that a walk has come to. -/
def entries (files : Files) (t : Trail) : Except FileFault (List (String × Entry)) :=
  match files.current t with
  | .directory entries => .ok entries
  | .text _ => .error .notDirectory

/-- The entry of a name among `entries`, if it is there. -/
def look (entries : List (String × Entry)) (name : String) : Except FileFault (Option Entry) :=
  if maxName < name.utf8ByteSize then .error .nameTooLong else .ok (entries.lookup name)

def step (files : Files) (t : Trail) (part : String) : Except FileFault Trail := do
  let entries ← files.entries t
  if Path.isIdle part then return t
  else if part = ".." then return t.tail
  else match ← look entries part with
    | none => .error .notFound
    | some e => return (part, e) :: t

/-- The parts of a path that is not refused before it is walked. -/
def parts (path : String) : Except FileFault (List String) :=
  if path.toList.contains '\x00' then .error .nullInPath
  else if path.isEmpty then .error .notFound
  else if maxPath < path.utf8ByteSize then .error .nameTooLong
  else .ok (Path.parts path)

/-- Walks from the working directory, or from the root if the path starts with a slash. -/
def walk (files : Files) (path : String) (parts : List String) : Except FileFault Trail := do
  let home := if path.startsWith "/" then [] else files.home
  (home ++ parts).foldlM files.step []

/-- Where a path leads. -/
def reach (files : Files) (path : String) : Except FileFault Trail := do
  files.walk path (← parts path)

def read (files : Files) (path : String) : Except FileFault String := do
  match files.current (← files.reach path) with
  | .text content => return content
  | .directory _ => .error .isDirectory

def isDirectory (files : Files) (path : String) : Bool :=
  match (files.reach path).map files.current with
  | .ok (.directory _) => true
  | _ => false

/-! ## Making entries -/

/-- Where a path would make an entry. -/
structure Place where
  /-- The way to the directory it would be in. -/
  trail : Trail
  entries : List (String × Entry)
  name : String
  /-- Slashes follow the name. -/
  slashed : Bool

namespace Place

def location (p : Place) : Location :=
  p.trail.location ++ [p.name]

/-- Whether the last part of the path leads to a directory that is there anyway. -/
def isUnnamed (p : Place) : Bool :=
  Path.isIdle p.name || p.name == ".."

end Place

def place (files : Files) (path : String) : Except FileFault Place := do
  let all ← parts path
  let named := (all.reverse.dropWhile String.isEmpty).reverse
  let trail ← files.walk path named.dropLast
  return {
    trail := trail
    entries := ← files.entries trail
    name := named.getLast?.getD ""
    slashed := named.length < all.length }

def write (files : Files) (path content : String) : Except FileFault Files := do
  let p ← files.place path
  if p.isUnnamed || p.slashed then .error .isDirectory
  else match ← look p.entries p.name with
    | some (.directory _) => .error .isDirectory
    | _ => return files.put p.location (.text content)

def createDirectory (files : Files) (path : String) : Except FileFault Files := do
  let p ← files.place path
  if p.isUnnamed then .error .exists
  else match ← look p.entries p.name with
    | some _ => .error .exists
    | none => return files.put p.location (.directory [])

/-- Creates a directory that may be there. -/
def ensureDirectory (files : Files) (path : String) : Except FileFault Files :=
  match files.createDirectory path with
  | .error .exists => if files.isDirectory path then .ok files else .error .exists
  | result => result

/-- Creates a directory and at most `n` of those that a path names above it. -/
def createWithin : Nat → Files → String → Except FileFault Files
  | 0, files, _ => .ok files
  | n + 1, files, path =>
      if path.isEmpty then .ok files
      else match files.ensureDirectory path with
        | .error .notFound => do
            (← createWithin n files (Path.parent path)).ensureDirectory path
        | result => result

def createDirectories (files : Files) (path : String) : Except FileFault Files :=
  createWithin path.length files path

/-! ## As a disk -/

/-- A change that leaves the files as they are where it fails. -/
def change (f : Files → Except FileFault Files) : StateM Files (Except FileFault Unit) :=
  fun files =>
    match f files with
    | .ok files => (.ok (), files)
    | .error fault => (.error fault, files)

def disk : Disk (StateM Files) :=
  { read := fun path files => (files.read path, files)
    createDirectories := fun path => change (·.createDirectories path)
    write := fun path content => change (·.write path content) }

end Files

end Reconcile
