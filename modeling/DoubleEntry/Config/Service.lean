import DoubleEntry.Config.Ledger
import DoubleEntry.Config.Leniency
import DoubleEntry.Text.Split

/-!
# Configuration of the service

The service lays four layers over one another: defaults, a file, the environment variables of the
service, and three variables with names of their own. Tables are joined, so a layer changes only
what it mentions.
-/

namespace DoubleEntry

/-- Where the service listens and with how many workers. -/
structure ServerConfig where
  host : String
  port : Nat
  workers : Nat
  deriving DecidableEq

/-- The configuration of the service. -/
structure ServiceConfig where
  server : ServerConfig
  token : Option String
  /-- Whether the log is written as JSON. -/
  jsonLog : Bool
  ledger : LedgerConfig
  deriving DecidableEq

/-- Why a service cannot run with its configuration. -/
inductive ServiceFault where
  | portZero
  | noWorkers
  | ledger (fault : ConfigFault)
  deriving DecidableEq

/-- The message of such a fault. -/
def ServiceFault.message : ServiceFault → String
  | portZero => "Server port cannot be 0"
  | noWorkers => "At least one worker is required"
  | ledger fault => (LedgerFault.config fault).message

/-- A token that protects the service; a blank one does not. -/
def effectiveToken (token : Option String) : Option String :=
  (token.map Text.trimmed).filter fun s => !s.isEmpty

namespace ServiceConfig

/-! ## Layers -/

/-- The defaults of the service. -/
def defaults : Setting :=
  .table [("server", .table [("host", .text "0.0.0.0"), ("port", .integer 7000),
      ("workers", .integer 4)]),
    ("logging", .table [("json", .bool false)]),
    ("ledger", .table [("service_name", .text "ledger-api"),
      ("database", .table [("url", .text "sqlite://data/ledger.db"),
        ("max_connections", .integer 10), ("min_connections", .integer 1)])])]

/-- Characters of the names in a dotted path. -/
def isNameChar (c : Char) : Bool := c.isAlphanum || c == '_' || c == '-' || c == ' '

/-- The keys of a dotted path. What is no path is a key by itself. -/
def keysOf (path : String) : List String :=
  let parts := Text.split '.' path.toList
  if parts.all fun part => !part.isEmpty && part.all isNameChar then parts.map String.ofList
  else [path]

/-- Puts a point in place of every two underscores. -/
def pointed : List Char → List Char
  | '_' :: '_' :: rest => '.' :: pointed rest
  | c :: rest => c :: pointed rest
  | [] => []

/-- What the names of the service's environment variables begin with. -/
def variableStart : List Char := "ledger_api__".toList

/-- The keys that an environment variable sets, if it is one of the service's. -/
def variableKeys? (name : String) : Option (List String) :=
  let letters := name.toLower.toList
  if variableStart.isPrefixOf letters then
    some (keysOf (String.ofList (pointed (letters.drop variableStart.length))))
  else none

/-- Lays one value over a configuration. -/
def set (config : Setting) (keys : List String) (value : Setting) : Setting :=
  (Setting.nest keys value).onto (some config)

/-- Lays the fields of a file over a configuration. -/
def setFile (config : Setting) (file : Setting.Fields) : Setting :=
  file.foldl (fun c field => set c (keysOf field.1) field.2) config

/-- Lays environment variables of the service over a configuration. -/
def setVariables (config : Setting) (env : List (String × String)) : Setting :=
  env.foldl (fun c entry =>
    match variableKeys? entry.1 with
    | some keys => set c keys (.text entry.2)
    | none => c) config

/-- Environment variables with names of their own, and what they set. -/
def overrides : List (String × List String) :=
  [("DATABASE_URL", ["ledger", "database", "url"]), ("PORT", ["server", "port"]),
    ("LEDGER_AUTH_TOKEN", ["auth", "token"])]

/-- Lays those variables over a configuration. -/
def setOverrides (config : Setting) (env : List (String × String)) : Setting :=
  overrides.foldl (fun c override =>
    match env.lookup override.1 with
    | some value => set c override.2 (.text value)
    | none => c) config

/-- All layers, one over the other. -/
def layers (file : Setting.Fields) (env : List (String × String)) : Setting :=
  setOverrides (setVariables (setFile defaults file) env) env

/-! ## Reading -/

/-- Reads the server part. -/
def server? (v : Setting) : Option ServerConfig :=
  if v.isRecord 3 then do
    let host ← Setting.asText? (← v.part? "host" 0)
    let port ← Setting.lenient.word? 16 (← v.part? "port" 1)
    let workers ← Setting.lenient.word? 64 (← v.part? "workers" 2)
    some ⟨host, port, workers⟩
  else none

/-- Reads the token. In a table it may be left out. -/
def token? (v : Setting) : Option (Option String) :=
  if v.isRecord 1 then
    match v, v.part? "token" 0 with
    | .list _, none => none
    | _, none | _, some .null => some none
    | _, some t => some <$> Setting.asText? t
  else none

/-- Reads whether the log is written as JSON. -/
def jsonLog? (v : Setting) : Option Bool :=
  if v.isRecord 1 then do Setting.asFlag? (← v.part? "json" 0) else none

/-- Reads the configuration of the service. -/
def ofSetting? (v : Setting) : Option ServiceConfig := do
  let server ← server? (← v.part? "server" 0)
  let token ← Setting.Reading.field token? v "auth" 1 none
  let jsonLog ← Setting.Reading.field jsonLog? v "logging" 2 false
  let ledger ←
    Setting.Reading.field (LedgerConfig.ofSetting? Setting.lenient) v "ledger" 3 .standard
  some ⟨server, token, jsonLog, ledger⟩

/-- Finds the first fault of a configuration. -/
def validate (c : ServiceConfig) : Except ServiceFault Unit :=
  if c.server.port = 0 then .error .portZero
  else if c.server.workers = 0 then .error .noWorkers
  else c.ledger.validate.mapError .ledger

end ServiceConfig

end DoubleEntry
