import DoubleEntry.Fault
import DoubleEntry.Json.Value

/-!
# Data maps and their keys

Accounts and transactions carry a data map, a JSON object whose top-level keys are made of ASCII
letters and underscores. Keys further inside are free.
-/

namespace DoubleEntry

/-- The data map of an account or a transaction. -/
abbrev Data := Json.Fields

namespace DataKey

/-- An ASCII letter or an underscore. -/
def isLetter (c : Char) : Bool := c.isAlpha || c == '_'

/-- Whether a text may be a key: one or more letters. -/
def isValid (key : String) : Bool := !key.toList.isEmpty && key.toList.all isLetter

/-- Finds fault with the first invalid top-level key. -/
def check (data : Data) : Except InputFault Unit :=
  match data.keys.find? fun key => !isValid key with
  | some key => .error (.invalidKey key)
  | none => .ok ()

end DataKey

end DoubleEntry
