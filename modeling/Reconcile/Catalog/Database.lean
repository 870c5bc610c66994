import Reconcile.Catalog.MySql
import Reconcile.Catalog.PostgreSql
import Reconcile.Catalog.SqlServer
/-!
# Databases

A database is reached through a connection, and what was reached is read by the
crawler of its engine.
-/

namespace Reconcile

/-- The crawler that reads a catalog as an engine keeps it. -/
def Dialect.crawler (engine : Dialect) (database : String) (cat : Catalog) : Crawler :=
  match engine with
  | .mySql => MySql.crawler database cat
  | .postgreSql => PostgreSql.crawler cat database
  | .sqlServer => SqlServer.crawler cat database

/-- The crawler of the database behind a connection. -/
def Connection.crawler (c : Connection) (e : Endpoint) : Except ConnectionFault Crawler :=
  (c.reach e).map fun cat => c.dialect.crawler c.database cat

end Reconcile
