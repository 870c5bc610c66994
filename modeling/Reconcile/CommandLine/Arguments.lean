import Reconcile.Schema.Shape
/-!
# Arguments

Options are long, with their value after an equals sign or as the next argument, or
single letters, which may be strung together and whose value may follow at once.  No
option is given twice, none takes a value that starts with a hyphen as the next
argument, and there is nothing but options.  Arguments count from the left: help is
given if it is asked for before anything is wrong.
-/

namespace Reconcile

inductive Switch where
  | config
  | direction
  | output
  | summary
  | help
  | version
deriving DecidableEq, Repr

namespace Switch

def all : List Switch :=
  [.config, .direction, .output, .summary, .help, .version]

def long : Switch → String
  | .config => "config"
  | .direction => "direction"
  | .output => "output"
  | .summary => "summary"
  | .help => "help"
  | .version => "version"

def short : Switch → Char
  | .config => 'c'
  | .direction => 'd'
  | .output => 'o'
  | .summary => 's'
  | .help => 'h'
  | .version => 'V'

def takesValue : Switch → Bool
  | .config | .direction | .output => true
  | .summary | .help | .version => false

end Switch

inductive UsageFault where
  | unexpected (argument : String)
  | missingValue (switch : Switch)
  | unneededValue (switch : Switch)
  | invalidValue (switch : Switch) (value : String)
  | repeated (switch : Switch)
deriving DecidableEq, Repr

def UsageFault.message : UsageFault → String
  | .unexpected argument => s!"error: unexpected argument '{argument}' found\n"
  | .missingValue switch => s!"error: a value is required for '--{switch.long}'\n"
  | .unneededValue switch => s!"error: '--{switch.long}' takes no value\n"
  | .invalidValue switch value => s!"error: invalid value '{value}' for '--{switch.long}'\n"
  | .repeated switch => s!"error: '--{switch.long}' cannot be used multiple times\n"

structure Arguments where
  config : Option String := none
  direction : Option Direction := none
  output : Option String := none
  summary : Bool := false
deriving DecidableEq, Repr

/-- What a command line asks for. -/
inductive Request where
  | help
  | version
  | run (arguments : Arguments)
deriving DecidableEq, Repr

namespace Arguments

/-- The settings file that is read if none is named. -/
def configPath (a : Arguments) : String :=
  a.config.getD "schema_compare.toml"

def path (s : Switch) (value : String) (given : Option String) :
    Except UsageFault (Option String) :=
  if given.isSome then .error (.repeated s)
  else if value.isEmpty then .error (.missingValue s)
  else .ok (some value)

/-- Sets an option that takes a value. -/
def set (a : Arguments) (s : Switch) (value : String) : Except UsageFault Arguments :=
  match s with
  | .config => do return { a with config := ← path s value a.config }
  | .output => do return { a with output := ← path s value a.output }
  | .direction =>
      if a.direction.isSome then .error (.repeated s)
      else match Direction.decode .json (.text value) with
        | some d => .ok { a with direction := some d }
        | none => .error (.invalidValue s value)
  | _ => .error (.unneededValue s)

def setSummary (a : Arguments) : Except UsageFault Arguments :=
  if a.summary then .error (.repeated .summary) else .ok { a with summary := true }

/-- Where the reader stands after an argument. -/
inductive Stand where
  | next (arguments : Arguments)
  /-- The value of an option is to come. -/
  | value (arguments : Arguments) (switch : Switch)
  | stop (request : Request)

/-- Letters strung together after one hyphen. -/
def letters (a : Arguments) : List Char → Except UsageFault Stand
  | [] => .ok (.next a)
  | c :: cs =>
      match Switch.all.find? (·.short == c) with
      | none => .error (.unexpected (String.ofList ['-', c]))
      | some .help => .ok (.stop .help)
      | some .version => .ok (.stop .version)
      | some .summary =>
          match a.setSummary with
          | .error e => .error e
          | .ok a => letters a cs
      | some s =>
          match cs with
          | [] => .ok (.value a s)
          | '=' :: value => (a.set s (String.ofList value)).map .next
          | value => (a.set s (String.ofList value)).map .next

/-- The name and the value of a long option. -/
def word (a : Arguments) (cs : List Char) : Except UsageFault Stand :=
  let name := String.ofList (cs.takeWhile (· != '='))
  let value : Option String :=
    match cs.dropWhile (· != '=') with
    | [] => none
    | _ :: value => some (String.ofList value)
  match Switch.all.find? (·.long == name) with
  | none => .error (.unexpected ("--" ++ name))
  | some s =>
      if s.takesValue then
        match value with
        | some value => (a.set s value).map .next
        | none => .ok (.value a s)
      else if value.isSome then .error (.unneededValue s)
      else match s with
        | .help => .ok (.stop .help)
        | .version => .ok (.stop .version)
        | _ => a.setSummary.map .next

/-- Whether an argument cannot be the value of the option before it. -/
def isSwitch (argument : String) : Bool :=
  argument.startsWith "-" && argument != "-"

def read (a : Arguments) (pending : Option Switch) : List String → Except UsageFault Request
  | [] =>
      match pending with
      | some s => .error (.missingValue s)
      | none => .ok (.run a)
  | argument :: rest =>
      match pending with
      | some s =>
          if isSwitch argument then .error (.missingValue s)
          else match a.set s argument with
            | .error e => .error e
            | .ok a => read a none rest
      | none =>
          let stand : Except UsageFault Stand :=
            match argument.toList with
            | ['-', '-'] =>
                match rest with
                | [] => .ok (.stop (.run a))
                | argument :: _ => .error (.unexpected argument)
            | '-' :: '-' :: cs => word a cs
            | '-' :: c :: cs => letters a (c :: cs)
            | _ => .error (.unexpected argument)
          match stand with
          | .error e => .error e
          | .ok (.stop request) => .ok request
          | .ok (.next a) => read a none rest
          | .ok (.value a s) => read a (some s) rest

end Arguments

def Request.parse (arguments : List String) : Except UsageFault Request :=
  Arguments.read {} none arguments

def Request.helpText : String :=
  "\n".intercalate
    ["Compare two database schemas and script the differences",
     "",
     "Usage: schema_compare [OPTIONS]",
     "",
     "Options:",
     "  -c, --config <CONFIG>        Project file naming the source and target databases "
       ++ "[default: schema_compare.toml]",
     "  -d, --direction <DIRECTION>  Which database the full script is meant to run on "
       ++ "[possible values: source-to-target, target-to-source]",
     "  -o, --output <OUTPUT>        Write the full script here instead of the configured "
       ++ "output directory",
     "  -s, --summary                Also write a JSON summary of every compared object",
     "  -h, --help                   Print help",
     "  -V, --version                Print version",
     ""]

def Request.versionText : String :=
  "schema_compare 0.1.0\n"

end Reconcile
