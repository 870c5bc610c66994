import Reconcile.Session
import Reconcile.Settings.Project
import Reconcile.Text.Casing
/-!
# The log

Log lines carry times and are not described here; what is described is where they go,
which of them are kept, and so whether there are any and in what form.
-/

namespace Reconcile

inductive Severity where
  | error
  | warning
  | info
  | debug
  | trace
deriving DecidableEq, Repr

namespace Severity

/-- From the gravest, which is one. -/
def rank : Severity → Nat
  | .error => 1
  | .warning => 2
  | .info => 3
  | .debug => 4
  | .trace => 5

def names : List (String × Severity) :=
  [("error", .error), ("warn", .warning), ("info", .info), ("debug", .debug),
   ("trace", .trace)]

/-- The number that digits write, after a plus sign or without one. -/
def numeral? (cs : List Char) : Option Nat :=
  let digits := match cs with
    | '+' :: cs => cs
    | cs => cs
  if digits.isEmpty || !digits.all Char.isDigit then none
  else some (digits.foldl (fun n c => n * 10 + (c.toNat - 48)) 0)

/-- A level by its name in any letter case or by its rank, and `info` for anything else. -/
def ofLevel (level : String) : Severity :=
  let word := Text.trim level
  let byRank := (numeral? word.toList).bind fun n =>
    (names.find? fun (_, s) => s.rank == n).map Prod.snd
  let byName := (names.find? fun (name, _) => Text.sameFolded name word).map Prod.snd
  (byRank <|> byName).getD .info

/-- Whether lines of severity `s` are kept at a level. -/
def keeps (level s : Severity) : Bool :=
  s.rank ≤ level.rank

end Severity

/-- What a log looks like. -/
inductive LogKind where
  | empty
  | text
  | json
deriving DecidableEq, Repr

/-- What a text looks like that may be a log. -/
def LogKind.ofText (s : String) : LogKind :=
  match s.toList with
  | [] => .empty
  | c :: _ => if c = '\x7b' then .json else .text

/-- Where log lines go. -/
inductive LogSink where
  | nowhere
  | stdout
  | file (path : String)
deriving DecidableEq, Repr

structure Log where
  level : Severity
  json : Bool
  sink : LogSink
deriving DecidableEq, Repr

namespace Log

/-- The log that settings ask for: without any, text to standard output. -/
def ofSettings : Option LogSettings → Log
  | none => { level := .info, json := false, sink := .stdout }
  | some s =>
      { level := Severity.ofLevel s.level
        json := Text.sameFolded s.format "json"
        sink := match s.file with
          | some path => .file path
          | none => if s.stdout then .stdout else .nowhere }

/-- What the log looks like once its gravest line was of severity `s`. -/
def kind (l : Log) (s : Severity) : LogKind :=
  if !l.level.keeps s then .empty else if l.json then .json else .text

end Log

/-- The severity of the gravest line that a session logs.  Connecting is logged at
`info`, an object that cannot be scripted is a warning, and everything that ends a
session once it is connected is an error. -/
def gravest : Except Fault Comparison → Severity
  | .error (.connection _) => .info
  | .error _ => .error
  | .ok r =>
      if Category.all.any fun c => (r.items c).any fun i => i.fault.isSome then .warning
      else .info

end Reconcile
