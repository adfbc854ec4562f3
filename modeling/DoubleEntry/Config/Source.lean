import DoubleEntry.Config.Service
import DoubleEntry.Json.Value
import DoubleEntry.Toml.Document

/-!
# Loading a configuration

The configuration of a ledger is read from a TOML file or from a JSON value and then checked. That
of the service is put together from its layers, of which the file may be missing.
-/

namespace DoubleEntry

mutual

/-- A JSON value as a setting. -/
def Setting.ofJson : Json → Setting
  | .null => .null
  | .bool b => .bool b
  | .integer n => .integer n
  | .real x => .real x
  | .text s => .text s
  | .array items => .list (Setting.ofItems items)
  | .object fields => .table (Setting.ofFields fields)

/-- JSON values as settings. -/
def Setting.ofItems : List Json → List Setting
  | [] => []
  | v :: rest => Setting.ofJson v :: Setting.ofItems rest

/-- JSON fields as settings. -/
def Setting.ofFields : List (String × Json) → List (String × Setting)
  | [] => []
  | (key, v) :: rest => (key, Setting.ofJson v) :: Setting.ofFields rest

end

namespace LedgerConfig

/-- The configuration that a JSON value writes. It is not checked. -/
def ofJson? (v : Json) : Option LedgerConfig := ofSetting? Setting.strict (Setting.ofJson v)

/-- Reads and checks the configuration in a file; `none` stands for a file that cannot be read. -/
def ofFile (content : Option String) : Except ConfigFault LedgerConfig :=
  match content with
  | none => .error (.unreadable "no such file")
  | some text =>
    match (Toml.parse? text).bind fun fields => ofSetting? Setting.strict (.table fields) with
    | none => .error (.unparsable "not a configuration")
    | some config => config.validate.map fun () => config

end LedgerConfig

/-- Loads the configuration of the service. It is not checked. -/
def ServiceConfig.load? (file : Option String) (env : List (String × String)) :
    Option ServiceConfig := do
  let fields ← match file with
    | none => some []
    | some text => Toml.parse? text
  ServiceConfig.ofSetting? (ServiceConfig.layers fields env)

end DoubleEntry
