import Reconcile.CommandLine.Arguments
import Reconcile.CommandLine.Disk
import Reconcile.CommandLine.Path
import Reconcile.Data.Json
import Reconcile.Diff.Shape
import Reconcile.Settings.Project
/-!
# Outputs

The script of one direction goes to a file, whose directory is made if it is missing,
and the summary of the comparison, if it is wanted, to a file beside it that has the
extension `json` instead of the script's.
-/

namespace Reconcile

/-- What went wrong in the program, to be shown with its cause. -/
inductive Failure where
  | loading (path : String) (fault : Fault)
  | logging (fault : FileFault)
  | cancelled
  | comparison (fault : Fault)
  | creating (path : String) (fault : FileFault)
  | writing (path : String) (fault : FileFault)
deriving DecidableEq, Repr

namespace Failure

/-- What was being done, and the cause. -/
def lines : Failure → String × Option String
  | .loading path fault => (s!"loading {path}", some fault.message)
  | .logging fault => ((Fault.files fault.message).message, some fault.message)
  | .cancelled => ("comparison cancelled", none)
  | .comparison fault => ("comparison failed", some fault.message)
  | .creating path fault => (s!"creating {path}", some fault.message)
  | .writing path fault => (s!"writing {path}", some fault.message)

/-- The lines of a text, all moved in. -/
def indented (s : String) : String :=
  String.ofList (s.toList.flatMap fun c => if c = '\n' then "\n    ".toList else [c])

def shown (f : Failure) : String :=
  match f.lines with
  | (head, none) => s!"Error: {head}\n"
  | (head, some cause) => s!"Error: {head}\n\nCaused by:\n    {indented cause}\n"

end Failure

def Direction.scriptName : Direction → String
  | .sourceToTarget => "source_to_target.sql"
  | .targetToSource => "target_to_source.sql"

/-- What is written where. -/
structure OutputPlan where
  direction : Direction
  path : String
  summary : Bool
deriving DecidableEq, Repr

namespace OutputPlan

/-- Arguments come before settings, and settings before what holds otherwise. -/
def of (a : Arguments) (settings : Option OutputSettings) : OutputPlan :=
  let direction := (a.direction <|> settings.map OutputSettings.direction).getD .sourceToTarget
  { direction := direction
    path := match a.output, settings with
      | some path, _ => path
      | none, some s => Path.join s.directory direction.scriptName
      | none, none => direction.scriptName
    summary := a.summary || (settings.map OutputSettings.summaryJson).getD false }

def summaryPath (p : OutputPlan) : String :=
  Path.withExtension "json" p.path

end OutputPlan

section Writing

variable {m : Type → Type} [Monad m]

/-- A file operation, whose fault is told together with what was being done. -/
def attempting {α : Type} (failure : FileFault → Failure) (act : m (Except FileFault α)) :
    ExceptT Failure m α :=
  ExceptT.mk do return (← act).mapError failure

/-- Writes the script and, if it is wanted, the summary of a comparison. -/
def writeOutputs (disk : Disk m) (r : Comparison) (p : OutputPlan) : ExceptT Failure m Unit := do
  let directory := Path.parent p.path
  if !directory.isEmpty then
    attempting (.creating directory) (disk.createDirectories directory)
  attempting (.writing p.path) (disk.write p.path ((r.script p.direction).getD ""))
  if p.summary then
    attempting (.writing p.summaryPath) (disk.write p.summaryPath (Data.Json.pretty r.encode))

end Writing

end Reconcile
