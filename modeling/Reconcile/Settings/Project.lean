import Reconcile.Data.Toml
import Reconcile.Fault
import Reconcile.Settings.Connection
/-!
# Projects

A project names the two databases to compare, the options of the comparison and, if
wanted, where log lines and results go.  `Project.read` takes one from a settings
text: it fills in the ports that are missing and refuses a project whose databases
are of different engines or lack what a connection needs.
-/

namespace Reconcile

structure LogSettings where
  level : String
  file : Option String := none
  format : String
  /-- Log lines go to standard output if no file is named. -/
  stdout : Bool
deriving DecidableEq, Repr

structure OutputSettings where
  directory : String
  direction : Direction := .sourceToTarget
  /-- Writes a summary beside the script. -/
  summaryJson : Bool := false
deriving DecidableEq, Repr

structure Project where
  source : Connection
  target : Connection
  options : Options := {}
  logging : Option LogSettings := none
  output : Option OutputSettings := none
deriving DecidableEq, Repr

/-! ## As data -/

section Shapes

open Decoder

def LogSettings.encode (l : LogSettings) : Datum :=
  .record
    [("level", .text l.level), ("file", .ofText? l.file), ("format", .text l.format),
     ("stdout", .bool l.stdout)]

def LogSettings.decode : Decoder LogSettings :=
  record .toml ["level", "file", "format", "stdout"] [] fun v => do
    return {
      level := ← required "level" text v
      file := ← optional "file" text v
      format := ← required "format" text v
      stdout := ← required "stdout" bool v }

def OutputSettings.encode (o : OutputSettings) : Datum :=
  .record
    [("directory", .text o.directory), ("direction", o.direction.encode),
     ("summary_json", .bool o.summaryJson)]

def OutputSettings.decode : Decoder OutputSettings :=
  record .toml ["directory"] ["direction", "summary_json"] fun v => do
    return {
      directory := ← required "directory" text v
      direction := ← defaulted "direction" .sourceToTarget (Direction.decode .toml) v
      summaryJson := ← defaulted "summary_json" false bool v }

def Project.encode (p : Project) : Datum :=
  .record
    [("source", p.source.encode), ("target", p.target.encode),
     ("options", p.options.encode), ("logging", .ofOption LogSettings.encode p.logging),
     ("output", .ofOption OutputSettings.encode p.output)]

def Project.decode : Decoder Project := anyRecord fun v => do
  return {
    source := ← required "source" (Connection.decode .toml) v
    target := ← required "target" (Connection.decode .toml) v
    options := ← defaulted "options" {} (Options.decode .toml) v
    logging := ← optional "logging" LogSettings.decode v
    output := ← optional "output" OutputSettings.decode v }

end Shapes

namespace Project

/-- The connection of one side. -/
def side (p : Project) : Side → Connection
  | .source => p.source
  | .target => p.target

def withPorts (p : Project) : Project :=
  { p with source := p.source.withPort, target := p.target.withPort }

/-! ## Validation -/

/-- What a connection lacks, whichever engine the other side has. -/
def flaw? (side : Side) (c : Connection) : Option SettingsFault :=
  if c.hostname.isEmpty then some (.noHostname side)
  else if c.database.isEmpty then some (.noDatabase side)
  else if c.useIntegratedAuthentication && c.dialect != .sqlServer then
    some (.integratedAuthentication side)
  else none

/-- Why a project cannot be run: engines that differ, before all else, then what the
source lacks, then what the target lacks. -/
def fault? (p : Project) : Option Fault :=
  if p.source.dialect ≠ p.target.dialect then
    some (.dialects (.settings p.source.dialect p.target.dialect))
  else
    (flaw? .source p.source <|> flaw? .target p.target).map .settings

def validated (p : Project) : Except Fault Project :=
  match p.fault? with
  | some fault => .error fault
  | none => .ok p

/-- The project that a settings text describes. -/
def read (text : String) : Except Fault Project :=
  match (Data.Toml.parse? text).bind decode with
  | none => .error (.settings .malformed)
  | some p => p.withPorts.validated

/-- The project that a settings file describes, given its text or why there is none. -/
def load (file : Except String String) : Except Fault Project :=
  match file with
  | .error reason => .error (.settings (.unreadable reason))
  | .ok text => read text

end Project

end Reconcile
