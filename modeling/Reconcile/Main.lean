import Reconcile.CommandLine.Program
/-!
# Command line

The program on real files.  It speaks none of the engines' protocols, so to it every
server is out of reach.
-/

namespace Reconcile

/-- The number of a system's fault, which some operations report negated. -/
def faultNumber (code : UInt32) : Nat :=
  min code.toNat (-code).toNat

def faultOf : IO.Error → FileFault
  | .noFileOrDirectory _ _ _ => .notFound
  | .alreadyExists _ _ _ => .exists
  | e@(.inappropriateType _ code _) =>
      match faultNumber code with
      | 20 => .notDirectory
      | 21 => .isDirectory
      | _ => .other (toString e)
  | e@(.invalidArgument _ code _) =>
      if faultNumber code = 36 then .nameTooLong else .other (toString e)
  | e => .other (toString e)

/-- A file operation whose failure is part of its result. -/
def onFiles {α : Type} (path : String) (act : String → IO α) : IO (Except FileFault α) :=
  if path.toList.contains '\x00' then return .error .nullInPath
  else
    try return .ok (← act path)
    catch e => return .error (faultOf e)

def realDisk : Disk IO :=
  { read := fun path => onFiles path fun path => IO.FS.readFile path
    createDirectories := fun path =>
      if path.isEmpty then return .ok () else onFiles path fun path => IO.FS.createDirAll path
    write := fun path content => onFiles path fun path => IO.FS.writeFile path content }

end Reconcile

open Reconcile in
def main (arguments : List String) : IO UInt32 := do
  let ending ← Program.run realDisk
    (fun _ => .unreachable "Network is unreachable (os error 101)") arguments
  IO.print ending.printed
  IO.eprint ending.complaint
  return ending.status.toUInt32
