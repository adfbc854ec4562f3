import DoubleEntry.Config.Setting
import DoubleEntry.Fault
import DoubleEntry.Text.Blank

/-!
# Configuration of a ledger

The name under which a ledger runs and the database in which it keeps its store. Every part has a
default. A pool must have room for at least one connection and for all that are kept open.
-/

namespace DoubleEntry

/-- Where the database is and how connections to it are pooled. -/
structure DatabaseConfig where
  url : String
  mostConnections : Nat
  leastConnections : Nat
  /-- How long to wait for a connection, in seconds. -/
  acquireTimeout : Nat
  /-- How long a writer waits for a locked database, in milliseconds. -/
  busyTimeout : Nat
  deriving DecidableEq

/-- The configuration of a ledger. -/
structure LedgerConfig where
  serviceName : String
  serviceVersion : String
  database : DatabaseConfig
  deriving DecidableEq

namespace DatabaseConfig

/-- The defaults. -/
def standard : DatabaseConfig := ⟨"sqlite://data/ledger.db", 10, 1, 30, 5000⟩

/-- Reads the database part of a configuration. -/
def ofSetting? (r : Setting.Reading) (v : Setting) : Option DatabaseConfig :=
  if v.isRecord 5 then do
    let url ← Setting.Reading.field r.text? v "url" 0 standard.url
    let most ← Setting.Reading.field (r.word? 32) v "max_connections" 1 standard.mostConnections
    let least ← Setting.Reading.field (r.word? 32) v "min_connections" 2 standard.leastConnections
    let acquire ←
      Setting.Reading.field (r.word? 64) v "acquire_timeout_secs" 3 standard.acquireTimeout
    let busy ← Setting.Reading.field (r.word? 64) v "busy_timeout_ms" 4 standard.busyTimeout
    some ⟨url, most, least, acquire, busy⟩
  else none

end DatabaseConfig

namespace LedgerConfig

/-- The defaults. -/
def standard : LedgerConfig := ⟨"ledger-core", "0.1.0", .standard⟩

/-- Reads the configuration of a ledger. -/
def ofSetting? (r : Setting.Reading) (v : Setting) : Option LedgerConfig :=
  if v.isRecord 3 then do
    let name ← Setting.Reading.field r.text? v "service_name" 0 standard.serviceName
    let version ← Setting.Reading.field r.text? v "service_version" 1 standard.serviceVersion
    let database ←
      Setting.Reading.field (DatabaseConfig.ofSetting? r) v "database" 2 standard.database
    some ⟨name, version, database⟩
  else none

/-- Finds the first fault of a configuration. -/
def validate (c : LedgerConfig) : Except ConfigFault Unit :=
  if Text.isBlankText c.database.url then .error .urlEmpty
  else if c.database.mostConnections = 0 then .error .noConnections
  else if c.database.mostConnections < c.database.leastConnections then
    .error (.connectionBounds c.database.leastConnections c.database.mostConnections)
  else .ok ()

end LedgerConfig

end DoubleEntry
