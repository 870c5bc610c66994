import Reconcile.Schema.Model
import Reconcile.Task.Status
import Reconcile.Diff.State
/-!
# Faults

Everything that can go wrong, by cause.  `Fault.message` is the one place that puts
a cause into words; a kind of fault is recognised by its constructor, never by its
wording.
-/

namespace Reconcile

/-- Why an update of a task was refused. -/
inductive TaskFault where
  | weightNotPositive (child : String)
  | childOfFinal (child : String) (status : Status) (task : String)
  | percentageOfParent (task : String)
  | progressOfFinal (status : Status) (task : String)
  | messageOfFinal (status : Status) (task : String)
  | transition (task : String) (source target : Status)
deriving DecidableEq, Repr

def TaskFault.message : TaskFault → String
  | .weightNotPositive child => s!"weight of child '{child}' must be positive"
  | .childOfFinal child status task =>
      s!"cannot add child '{child}' to {status.label} task '{task}'"
  | .percentageOfParent task => s!"percentage of '{task}' is computed from its children"
  | .progressOfFinal status task => s!"cannot update progress of {status.label} task '{task}'"
  | .messageOfFinal status task => s!"cannot update message of {status.label} task '{task}'"
  | .transition task source target =>
      s!"task '{task}' cannot go from {source.label} to {target.label}"

/-- Why an object cannot be written as statements. -/
inductive ScriptFault where
  | noColumns (table : String)
  | noSequences (sequence : Key)
  /-- The definition of `object` is blank. -/
  | noDefinition (object : String)
  /-- The definition is blank, as SQL Server shows what is encrypted. -/
  | hiddenDefinition (object : String)
  | inexpressibleIndex (index table : String)
  | fulltextIndex (index table : String)
  | identityChange (table column : String)
  | unnamedDefault (table column : String)
  | noRestrict (foreignKey : String)
  /-- The state of an item calls for an object that the item does not hold. -/
  | missingObject (category : Category) (key : Key) (state : DiffState)
deriving DecidableEq, Repr

def ScriptFault.message : ScriptFault → String
  | .noColumns table => s!"Table {table} has no columns"
  | .noSequences sequence => s!"MySQL has no sequences; cannot script {sequence.shown}"
  | .noDefinition object => s!"Definition of {object} is not available"
  | .hiddenDefinition object =>
      s!"Definition of {object} is not available (encrypted or no permission)"
  | .inexpressibleIndex index table =>
      s!"Index {index} on {table} has a kind PostgreSQL cannot express"
  | .fulltextIndex index table =>
      s!"Full-text index {index} on {table} needs a full-text catalog and is not scripted"
  | .identityChange table column =>
      s!"SQL Server cannot change the identity of existing column {table}.{column}"
  | .unnamedDefault table column =>
      s!"Default of {table}.{column} has no constraint name to drop"
  | .noRestrict foreignKey => s!"SQL Server has no RESTRICT action (foreign key {foreignKey})"
  | .missingObject category key state =>
      s!"{category.label} {key.shown} is {state.label} but lacks the object to script"

/-- Why a catalog could not be read. -/
inductive CrawlFault where
  /-- What a server or a driver said. -/
  | reported (message : String)
  /-- A row has NULL in a column that is decoded as always present. -/
  | undecodableNull (column : String)
  | unexpectedNull (column : String)
  | missingRow
  | numberTooSmall
  | numberTooLarge
  | functionalIndex (index table : String)
  | expressionIndex (index : String) (table : Key)
  | xmlIndex (index table : String)
  | unknownAction (rule : String)
  | unknownActionCode (code : String)
  /-- Categories that failed, each with the text of its fault. -/
  | categories (failures : List (Category × String))
deriving DecidableEq, Repr

def CrawlFault.message : CrawlFault → String
  | .reported message => message
  | .undecodableNull column =>
      s!"error occurred while decoding column \"{column}\": unexpected null; try decoding as an \x60Option\x60"
  | .unexpectedNull column => s!"Unexpected NULL in column {column}"
  | .missingRow => "no rows returned by a query that expected to return at least one row"
  | .numberTooSmall => "number too small to fit in target type"
  | .numberTooLarge => "number too large to fit in target type"
  | .functionalIndex index table => s!"Functional index {index} on {table} is not supported"
  | .expressionIndex index table =>
      s!"Expression index {index} on {table.shown} is not supported"
  | .xmlIndex index table => s!"XML index {index} on {table} is not supported"
  | .unknownAction rule => s!"Unknown referential action: {rule}"
  | .unknownActionCode code => s!"Unknown referential action code: {code}"
  | .categories failures =>
      "; ".intercalate (failures.map fun (c, text) => s!"{c.label}: {text}")

/-- Why a database could not be reached. -/
inductive ConnectionFault where
  | reported (message : String)
  /-- No route leads to the host. -/
  | unreachable (engine : Dialect) (reason : String)
  | noEncryption
  | noIntegratedAuthentication
  | loginRefused (engine : Dialect) (message : String)
deriving DecidableEq, Repr

def ConnectionFault.message : ConnectionFault → String
  | .reported message => message
  | .unreachable .sqlServer reason => s!"Failed to connect to SQL Server: {reason}"
  | .unreachable _ reason => s!"error communicating with database: {reason}"
  | .noEncryption =>
      "error occurred while attempting to establish a TLS connection: server does not support TLS"
  | .noIntegratedAuthentication => "Integrated authentication is only available on Windows"
  | .loginRefused .sqlServer message => s!"Failed to authenticate with SQL Server: {message}"
  | .loginRefused _ message => message

/-- The two databases of a comparison. -/
inductive Side where
  | source
  | target
deriving DecidableEq, Repr, Inhabited

def Side.label : Side → String
  | .source => "source"
  | .target => "target"

def Side.other : Side → Side
  | .source => .target
  | .target => .source

/-- What is given for one of the two sides. -/
def Side.pick {α : Type} (source target : α) : Side → α
  | .source => source
  | .target => target

/-- Why settings were refused. -/
inductive SettingsFault where
  | reported (message : String)
  | unreadable (reason : String)
  | malformed
  | noHostname (side : Side)
  | noDatabase (side : Side)
  | integratedAuthentication (side : Side)
deriving DecidableEq, Repr

def SettingsFault.message : SettingsFault → String
  | .reported message => message
  | .unreadable reason => s!"Failed to read config file: {reason}"
  | .malformed => "Failed to parse config file"
  | .noHostname side => s!"{side.label} hostname is empty"
  | .noDatabase side => s!"{side.label} database is empty"
  | .integratedAuthentication side =>
      s!"{side.label} uses integrated authentication, which only Microsoft SQL Server supports"

/-- Why two dialects do not go together. -/
inductive DialectFault where
  /-- Two models of different dialects. -/
  | models (source target : Dialect)
  /-- Settings that name databases of different dialects. -/
  | settings (source target : Dialect)
deriving DecidableEq, Repr

def DialectFault.message : DialectFault → String
  | .models source target =>
      s!"cannot compare a {source.title} source with a {target.title} target"
  | .settings source target =>
      s!"source is {source.title} but target is {target.title}; cross-dialect comparison is not supported"

inductive Fault where
  | connection (cause : ConnectionFault)
  | crawl (cause : CrawlFault)
  | script (cause : ScriptFault)
  /-- The operation stopped because cancellation was requested. -/
  | cancelled
  | settings (cause : SettingsFault)
  | task (cause : TaskFault)
  | dialects (cause : DialectFault)
  | files (reason : String)
  | serialization (reason : String)
deriving DecidableEq, Repr

namespace Fault

def message : Fault → String
  | .connection cause => "Connection error: " ++ cause.message
  | .crawl cause => "Crawl error: " ++ cause.message
  | .script cause => "Scripting error: " ++ cause.message
  | .cancelled => "Operation cancelled"
  | .settings cause => "Configuration error: " ++ cause.message
  | .task cause => "Task error: " ++ cause.message
  | .dialects cause => "Unsupported dialect: " ++ cause.message
  | .files reason => "IO error: " ++ reason
  | .serialization reason => "Serialization error: " ++ reason

end Fault

end Reconcile
