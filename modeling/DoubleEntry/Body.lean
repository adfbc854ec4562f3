import DoubleEntry.Json.Reader
import DoubleEntry.Json.Writer
import DoubleEntry.Text.Utf8
import DoubleEntry.Time.Text
import DoubleEntry.Transaction

/-!
# Request bodies

The JSON objects in which accounts, transactions and changes of data are submitted. Unknown fields
are ignored, an absent or null data map is empty, and a line may be written as an object or as a
pair. `Transaction.toJson` writes the form that reads back.
-/

namespace DoubleEntry

open Time (Timestamp)

/-- What is wrong with a request body. -/
inductive BodyFault where
  /-- Not a JSON text, or not of the shape asked for; and what the reader has to say about it. -/
  | malformed (detail : String)
  | notAnObject
  deriving DecidableEq

/-- The wording of a body fault. -/
def BodyFault.reason : BodyFault → String
  | malformed detail => detail
  | notAnObject => "Request body must be a JSON object"

/-- The message of a body fault. -/
def BodyFault.message (fault : BodyFault) : String := "Malformed request body: " ++ fault.reason

namespace Json

/-- The text of a text value. -/
def text? : Json → Option String
  | .text s => some s
  | _ => none

/-- The amount of an integer that fits. -/
def amount? : Json → Option Amount
  | .integer n => Amount.ofInt? n
  | _ => none

/-- An amount as a JSON integer. -/
def ofAmount (a : Amount) : Json := .integer a.toInt

end Json

/-- The data map of a body. -/
def Data.ofBody? (body : Json.Fields) : Option Data :=
  match body.get? "data" with
  | none | some .null => some []
  | some (.object fields) => some fields
  | some _ => none

/-- Reads a line: an object with an account and an amount, or a pair of them. -/
def Line.ofJson? : Json → Option Line
  | .object fields => do
    let account ← (← Json.Fields.get? "account" fields).text?
    let delta ← (← Json.Fields.get? "delta" fields).amount?
    some ⟨account, delta⟩
  | .array [account, delta] => do some ⟨← account.text?, ← delta.amount?⟩
  | _ => none

/-- A line as a JSON object. -/
def Line.toJson (line : Line) : Json :=
  .object [("account", .text line.account), ("delta", .ofAmount line.delta)]

namespace Transaction

/-- The timestamp of a body, which may be left out. -/
def timestamp? (body : Json.Fields) : Option (Option Timestamp) :=
  match body.get? "timestamp" with
  | none | some .null => some none
  | some (.text s) => (Timestamp.parse? s).map some
  | some _ => none

/-- The lines of a body, which may be left out. -/
def lines? (body : Json.Fields) : Option (List Line) :=
  match body.get? "lines" with
  | none => some []
  | some (.array items) => items.mapM Line.ofJson?
  | some _ => none

/-- Reads a transaction. -/
def ofBody? (body : Json.Fields) : Option Transaction := do
  let id ← (← body.get? "id").text?
  let timestamp ← timestamp? body
  let data ← Data.ofBody? body
  let lines ← lines? body
  some ⟨id, timestamp, data, lines⟩

/-- A transaction as a JSON object. -/
def toJson (t : Transaction) : Json :=
  .object ([("data", .object t.data), ("id", .text t.id),
    ("lines", .array (t.lines.map Line.toJson))] ++
    t.timestamp.toList.map fun at_ => ("timestamp", .text at_.render))

/-- The fields of a transaction in the order in which they are written. -/
def fields (t : Transaction) : Json.Fields :=
  ("id", .text t.id) :: (t.timestamp.toList.map fun at_ => ("timestamp", .text at_.render)) ++
    [("data", .object t.data), ("lines", .array (t.lines.map Line.toJson))]

/-- A transaction as JSON text. -/
def render (t : Transaction) : String := (Json.object t.fields).render

end Transaction

namespace Account

/-- Reads an account. -/
def ofBody? (body : Json.Fields) : Option Account := do
  let id ← (← body.get? "id").text?
  let balance ← match body.get? "balance" with
    | none => some 0
    | some v => v.amount?
  let data ← Data.ofBody? body
  some ⟨id, balance, data⟩

/-- An account as a JSON object. -/
def toJson (a : Account) : Json :=
  .object [("balance", .ofAmount a.balance), ("data", .object a.data), ("id", .text a.id)]

end Account

/-- An id and the data that goes with it. -/
structure DataRequest where
  id : String
  data : Data

namespace DataRequest

/-- Reads an id and its data. -/
def ofBody? (body : Json.Fields) : Option DataRequest := do
  let id ← (← body.get? "id").text?
  let data ← Data.ofBody? body
  some ⟨id, data⟩

end DataRequest

namespace Body

/-- Reads a body that is a JSON object of the shape given by `shape?`. -/
def ofText {α : Type} (shape? : Json.Fields → Option α) (text : String) : Except BodyFault α :=
  match Json.parse? text with
  | none => .error (.malformed "not a JSON document")
  | some (.object fields) =>
    match shape? fields with
    | some a => .ok a
    | none => .error (.malformed "a field is missing or has the wrong type")
  | some _ => .error .notAnObject

/-- Reads a body of bytes. -/
def ofBytes {α : Type} (shape? : Json.Fields → Option α) (bytes : List UInt8) :
    Except BodyFault α :=
  match Text.Utf8.decode? bytes with
  | some text => ofText shape? text
  | none => .error (.malformed "not UTF-8")

end Body

end DoubleEntry
