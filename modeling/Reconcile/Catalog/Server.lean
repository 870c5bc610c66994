import Reconcile.Catalog.Row
import Reconcile.Crawl.Reading
import Reconcile.Settings.Connection
/-!
# Catalogs and their servers

A catalog is what a database server answers when it is asked about its objects: rows,
or an error.  Each question has a subject, by which the catalog answers it and by
which cancellation can be planned to arrive together with it.  What rows come to is
added to a table by work on that table (`Filling`), of which a failure leaves what there
is.  `Connection.reach` says what comes of connecting, given what stands at the other end.
-/

namespace Reconcile

/-- What a query asks for.  Tables and routines are spelled as the engine's crawler
spells them. -/
inductive Subject where
  | login
  | objects (category : Category)
  | columns (table : String)
  | indexes (table : String)
  | foreignKeys (table : String)
  /-- The creation statement of a routine. -/
  | creation (routine : String)
deriving DecidableEq, Repr

/-- An error that a server answers. -/
structure ServerFault where
  code : Int
  state : String
  message : String
deriving DecidableEq, Repr

/-- The error as the engine's driver words it. -/
def ServerFault.shown (f : ServerFault) : Dialect → String
  | .mySql => s!"error returned from database: {f.code} ({f.state}): {f.message}"
  | .postgreSql => s!"error returned from database: {f.message}"
  | .sqlServer =>
      s!"Token error: '{f.message}' on server server executing  on line 1 (code: {f.code}, state: 1, class: 16)"

structure Catalog where
  rows : Subject → List Row := fun _ => []
  /-- The creation statement of a routine: none if there is no such routine, and NULL
  if it is not to be seen. -/
  creation : String → Option (Option String) := fun _ => none
  fault : Subject → Option ServerFault := fun _ => none
  /-- Cancellation is requested when the query arrives. -/
  interrupts : Subject → Bool := fun _ => false

/-! ## Asking -/

namespace Catalog

/-- Sends a query and waits for the server to take it up. -/
def send (cat : Catalog) (engine : Dialect) (subject : Subject) (q : Query) :
    Reading Unit := do
  .query q (pure ())
  Reading.interruptIf (cat.interrupts subject)
  match cat.fault subject with
  | some f => Reading.fail (.crawl (.reported (f.shown engine)))
  | none => pure ()

/-- The rows that a query answers, all of them decoded at once. -/
def ask {α : Type} (cat : Catalog) (engine : Dialect) (subject : Subject) (q : Query)
    (decode : Row → Except CrawlFault α) : Reading (List α) := do
  cat.send engine subject q
  Reading.ofExcept ((cat.rows subject).mapM decode)

end Catalog

/-! ## Filling a table -/

/-- Work on a table where it stands.  A failure keeps what was done to the table before. -/
abbrev Filling : Type → Type := ExceptT Fault (StateM Table)

namespace Filling

def on {α : Type} (work : Filling α) (t : Table) : Except Fault α × Table :=
  work.run.run t

/-- Makes the objects that rows come to apart from the table and adds them when all of
them are made. -/
def adding {γ : Type} (make : Table → Except CrawlFault (List γ)) (add : Table → γ → Table) :
    Filling Unit := do
  match make (← get) with
  | .ok objects => modify fun t => objects.foldl add t
  | .error e => throw (.crawl e)

end Filling

/-- Reads on with a table as the work on it left it. -/
def Reading.filled (work : Filling Unit) (t : Table) : Reading Table :=
  match work.on t with
  | (.ok (), t) => pure t
  | (.error e, _) => Reading.fail e

/-! ## Connecting -/

/-- What stands at the other end of a connection. -/
inductive Endpoint where
  | unreachable (reason : String)
  | server (catalog : Catalog)

/-- Whether a server takes a login to request cancellation and never answers it. -/
def Endpoint.holdsLogin : Endpoint → Bool
  | .unreachable _ => false
  | .server catalog => catalog.interrupts .login

/-- Connects, in the order: what this program cannot do, the way to the host, what the
server cannot do, the login. -/
def Connection.reach (c : Connection) : Endpoint → Except ConnectionFault Catalog
  | .unreachable reason =>
      if c.useIntegratedAuthentication && c.dialect == .sqlServer then
        .error .noIntegratedAuthentication
      else .error (.unreachable c.dialect reason)
  | .server catalog =>
      if c.useIntegratedAuthentication && c.dialect == .sqlServer then
        .error .noIntegratedAuthentication
      else if c.useEncryption && c.dialect != .sqlServer then .error .noEncryption
      else match catalog.fault .login with
        | some f => .error (.loginRefused c.dialect (f.shown c.dialect))
        | none => .ok catalog

end Reconcile
