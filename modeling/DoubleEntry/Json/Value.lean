import DoubleEntry.Number.Binary64

/-!
# JSON values

A JSON value with exact integers, doubles for every other number, and objects as lists of fields. A
list of fields built by `put` alone is in strictly increasing order of its keys, which is the order
of their code points.
-/

namespace DoubleEntry

/-- A JSON value. -/
inductive Json where
  | null
  | bool (value : Bool)
  | integer (value : Int)
  | real (value : Number.Binary64)
  | text (value : String)
  | array (items : List Json)
  | object (fields : List (String × Json))

/-- The fields of a JSON object. -/
abbrev Json.Fields := List (String × Json)

namespace Json.Fields

/-- Sets a field, in place if the key is there and otherwise before the first greater key. -/
def put (key : String) (value : Json) : Fields → Fields
  | [] => [(key, value)]
  | (k, v) :: rest =>
    if key = k then (key, value) :: rest
    else if key < k then (key, value) :: (k, v) :: rest
    else (k, v) :: put key value rest

/-- The value of the first field with the given key. -/
def get? (key : String) : Fields → Option Json
  | [] => none
  | (k, v) :: rest => if key = k then some v else get? key rest

/-- The keys, in order. -/
def keys (fields : Fields) : List String := fields.map Prod.fst

/-- The fields in increasing order of their keys; of fields with one key the last wins. -/
def sorted (fields : Fields) : Fields := fields.foldl (fun done f => put f.1 f.2 done) []

end Json.Fields

/-- A JSON object with its fields in increasing order of their keys. -/
def Json.ofFields (fields : Json.Fields) : Json := .object (Json.Fields.sorted fields)

end DoubleEntry
