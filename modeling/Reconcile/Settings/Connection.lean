import Reconcile.Schema.Shape
import Reconcile.Text.Escaped
/-!
# Connections

How one database is reached.  Where no port is given the engine's own is meant, and
`withPort` writes it in.  A password never shows in a diagnostic.
-/

namespace Reconcile

structure Connection where
  dialect : Dialect
  hostname : String
  port : Option UInt16 := none
  database : String
  username : String := ""
  password : String := ""
  useEncryption : Bool := false
  /-- Sign in as the account that runs the program, which only SQL Server knows. -/
  useIntegratedAuthentication : Bool := false
deriving DecidableEq, Repr, Inhabited

namespace Connection

/-- The port that is used, given or not. -/
def effectivePort (c : Connection) : UInt16 :=
  c.port.getD c.dialect.defaultPort

/-- The connection with its port written in. -/
def withPort (c : Connection) : Connection :=
  { c with port := some c.effectivePort }

/-! ## As data -/

open Decoder

def encode (c : Connection) : Datum :=
  .record
    [("dialect", c.dialect.encode),
     ("hostname", .text c.hostname),
     ("port", .ofOption .ofUInt16 c.port),
     ("database", .text c.database),
     ("username", .text c.username),
     ("password", .text c.password),
     ("use_encryption", .bool c.useEncryption),
     ("use_integrated_authentication", .bool c.useIntegratedAuthentication)]

def decode (n : Notation) : Decoder Connection :=
  record n ["dialect", "hostname", "port", "database"]
      ["username", "password", "use_encryption", "use_integrated_authentication"] fun v => do
    return {
      dialect := ← required "dialect" (Dialect.decode n) v
      hostname := ← required "hostname" text v
      port := ← optional "port" uint16 v
      database := ← required "database" text v
      username := ← defaulted "username" "" text v
      password := ← defaulted "password" "" text v
      useEncryption := ← defaulted "use_encryption" false bool v
      useIntegratedAuthentication := ← defaulted "use_integrated_authentication" false bool v }

/-! ## In diagnostics -/

end Connection

/-- Name of the engine where a connection is shown. -/
def Dialect.tag : Dialect → String
  | .sqlServer => "MicrosoftSql"
  | .mySql => "MySql"
  | .postgreSql => "PostgreSql"

namespace Connection

def shownPort : Option UInt16 → String
  | none => "None"
  | some p => s!"Some({p.toNat})"

def shownFlag (b : Bool) : String :=
  if b then "true" else "false"

/-- The connection field by field, with stars for the password whatever it is. -/
def shown (c : Connection) : String :=
  let fields :=
    [("dialect", c.dialect.tag),
     ("hostname", Text.escaped c.hostname),
     ("port", shownPort c.port),
     ("database", Text.escaped c.database),
     ("username", Text.escaped c.username),
     ("password", Text.escaped "***"),
     ("use_encryption", shownFlag c.useEncryption),
     ("use_integrated_authentication", shownFlag c.useIntegratedAuthentication)]
  "ConnectionOptions \x7b "
    ++ ", ".intercalate (fields.map fun (name, value) => name ++ ": " ++ value) ++ " \x7d"

end Connection

end Reconcile
