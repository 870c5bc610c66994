import Reconcile.CommandLine.Log
import Reconcile.CommandLine.Outputs
/-!
# The program

A run reads its settings, opens its log, compares and scripts the two databases, and
writes the outputs.  Whatever fails ends it, with a message on standard error; a
command line that cannot be understood ends it before anything is read.
-/

namespace Reconcile

/-- What is seen of the program when it has ended. -/
structure Ending where
  status : Nat
  /-- Printed text, log lines aside. -/
  printed : String := ""
  complaint : String := ""
  sink : LogSink := .nowhere
  log : LogKind := .empty
deriving DecidableEq, Repr

/-- What standard output looks like. -/
def Ending.stdout (e : Ending) : LogKind :=
  if !e.printed.isEmpty then LogKind.ofText e.printed
  else match e.sink with
    | .stdout => e.log
    | _ => .empty

namespace Program

variable {m : Type → Type} [Monad m]

def loadProject (disk : Disk m) (path : String) : ExceptT Failure m Project :=
  ExceptT.mk do
    let file := (← disk.read path).mapError FileFault.message
    return (Project.load file).mapError (.loading path)

/-- Makes the log's file, if it goes to one. -/
def openLog (disk : Disk m) (l : Log) : ExceptT Failure m Unit :=
  match l.sink with
  | .file path => do
      attempting .logging (disk.createDirectories (Path.parent path))
      attempting .logging (disk.write path "")
  | _ => pure ()

def comparisonOf : Except Fault Comparison → Except Failure Comparison
  | .ok r => .ok r
  | .error .cancelled => .error .cancelled
  | .error fault => .error (.comparison fault)

/-- Compares and scripts, and answers the outcome and what was logged. -/
def work (disk : Disk m) (ends : Side → Endpoint) (a : Arguments) (p : Project) (l : Log) :
    m Ending := do
  let outcome := ((Session.connectAndRun p.options p.side ends).on Session.fresh).1
  let seen : Ending := { status := 0, sink := l.sink, log := l.kind (gravest outcome) }
  match comparisonOf outcome with
  | .error f => return { seen with status := 1, complaint := f.shown }
  | .ok r =>
      match ← (writeOutputs disk r (.of a p.output)).run with
      | .ok () => return seen
      | .error f => return { seen with status := 1, complaint := f.shown }

/-- One run of the program, given what stands at the other ends of its connections. -/
def run (disk : Disk m) (ends : Side → Endpoint) (arguments : List String) : m Ending := do
  match Request.parse arguments with
  | .error e => return { status := 2, complaint := e.message }
  | .ok .help => return { status := 0, printed := Request.helpText }
  | .ok .version => return { status := 0, printed := Request.versionText }
  | .ok (.run a) =>
      let opening : ExceptT Failure m (Project × Log) := do
        let p ← loadProject disk a.configPath
        let l := Log.ofSettings p.logging
        openLog disk l
        return (p, l)
      match ← opening.run with
      | .error f => return { status := 1, complaint := f.shown }
      | .ok (p, l) => work disk ends a p l

end Program

end Reconcile
