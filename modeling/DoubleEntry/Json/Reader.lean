import DoubleEntry.Json.Token
import DoubleEntry.Json.Word

/-!
# Reading a JSON text

A machine with a stack of open arrays and objects reads the tokens of a text one by one. The text is
a value when the machine ends with that value complete and nothing open. Of several fields with one
key the last is kept, fields are kept in increasing order of their keys, and no more than
`Reader.deepest` arrays and objects may be open at a time.
-/

namespace DoubleEntry.Json

namespace Reader

/-- How a text is read: the depth to which arrays and objects may nest, what a word means, and how
a field joins the fields before it. -/
structure Rules where
  deepest : Nat
  ofWord? : List Char → Option Json
  put : String → Json → Fields → Fields

/-- An array or object that is open while one of its values is read. -/
inductive Frame where
  /-- The items before the value, last first. -/
  | array (before : List Json)
  /-- The fields before the value, and its key. -/
  | object (before : Fields) (key : String)

/-- What may come next, within the open frames, innermost first. -/
inductive State where
  /-- A value. -/
  | value (stack : List Frame)
  /-- A value or the end of an array without items. -/
  | firstItem (stack : List Frame)
  /-- A key or the end of an object without fields. -/
  | firstKey (stack : List Frame)
  /-- A key. -/
  | key (before : Fields) (stack : List Frame)
  /-- The colon after a key. -/
  | colon (before : Fields) (key : String) (stack : List Frame)
  /-- What follows a complete value. -/
  | after (value : Json) (stack : List Frame)

/-- The state after an opening bracket, unless it nests too deep. -/
def State.open? (rules : Rules) (stack : List Frame) (next : List Frame → State) : Option State :=
  if stack.length < rules.deepest then some (next stack) else none

/-- Reads the first token of a value. -/
def State.begin? (rules : Rules) (stack : List Frame) : Token → Option State
  | .openArray => open? rules stack firstItem
  | .openObject => open? rules stack firstKey
  | .text s => some (after (.text s) stack)
  | .word letters => (rules.ofWord? letters).map (after · stack)
  | _ => none

/-- Reads one token. -/
def State.step? (rules : Rules) : State → Token → Option State
  | value stack, t => begin? rules stack t
  | firstItem stack, .closeArray => some (after (.array []) stack)
  | firstItem stack, t => begin? rules (.array [] :: stack) t
  | firstKey stack, .closeObject => some (after (.object []) stack)
  | firstKey stack, .text k => some (colon [] k stack)
  | key before stack, .text k => some (colon before k stack)
  | colon before k stack, .colon => some (value (.object before k :: stack))
  | after v (.array before :: stack), .comma => some (value (.array (v :: before) :: stack))
  | after v (.array before :: stack), .closeArray =>
    some (after (.array (v :: before).reverse) stack)
  | after v (.object before k :: stack), .comma => some (key (rules.put k v before) stack)
  | after v (.object before k :: stack), .closeObject =>
    some (after (.object (rules.put k v before)) stack)
  | _, _ => none

/-- Reads tokens one after another. -/
def State.run? (rules : Rules) (s : State) : List Token → Option State
  | [] => some s
  | t :: rest => (s.step? rules t).bind fun next => next.run? rules rest

/-- The value read, when nothing is open. -/
def State.result? : State → Option Json
  | after v [] => some v
  | _ => none

/-- The value of a text under the given rules. -/
def read? (rules : Rules) (cs : List Char) : Option Json := do
  let tokens ← Token.scan? cs
  let last ← (State.value []).run? rules tokens
  last.result?

/-- The greatest depth to which arrays and objects may nest. -/
def deepest : Nat := 127

/-- The rules for documents that come from outside. -/
def strict : Rules := ⟨deepest, ofWord?, Fields.put⟩

end Reader

/-- The value that a text writes. -/
def parse? (s : String) : Option Json := Reader.read? Reader.strict s.toList

end DoubleEntry.Json
