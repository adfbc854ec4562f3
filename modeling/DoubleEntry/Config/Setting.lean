import DoubleEntry.Number.Binary64
import DoubleEntry.Number.Word

/-!
# Settings

The values that configuration files and environments are made of. A record is written as a table of
its fields or as a list of them in their order.
-/

namespace DoubleEntry

open Number (Binary64)

/-- A value of a configuration. -/
inductive Setting where
  | null
  | bool (value : Bool)
  | integer (value : Int)
  | real (value : Binary64)
  /-- The number that is none. -/
  | nan
  | text (value : String)
  /-- A date, a time or both, as it was written. -/
  | moment (text : String)
  | list (items : List Setting)
  | table (fields : List (String × Setting))

namespace Setting

/-- The fields of a table. -/
abbrev Fields := List (String × Setting)

/-- Sets a field, in place if the key is there and otherwise behind the others. -/
def put (key : String) (value : Setting) : Fields → Fields
  | [] => [(key, value)]
  | (k, v) :: rest => if key = k then (k, value) :: rest else (k, v) :: put key value rest

/-- Whether a value can be a record with the given number of fields. -/
def isRecord (size : Nat) : Setting → Bool
  | list items => decide (items.length ≤ size)
  | table _ | moment _ => true
  | _ => false

/-- The field of a record with the given name and position. -/
def part? (name : String) (position : Nat) : Setting → Option Setting
  | list items => items[position]?
  | table fields => fields.lookup name
  | _ => none

/-- The fields of a table; anything else has none. -/
def fields : Setting → Fields
  | table fields => fields
  | _ => []

mutual

/-- Lays a value onto another: tables are joined field by field, and everything else replaces what
is below it. -/
def onto (below : Option Setting) : Setting → Setting
  | table [] => below.getD (table [])
  | table (f :: rest) => table (fieldsOnto ((below.map fields).getD []) (f :: rest))
  | moment s => text s
  | v => v

/-- Lays fields onto those below, one after another. -/
def fieldsOnto (below : Fields) : Fields → Fields
  | [] => below
  | (k, v) :: rest => fieldsOnto (put k (onto (below.lookup k) v) below) rest

end

/-- A value under keys one inside the other. -/
def nest (keys : List String) (value : Setting) : Setting :=
  keys.foldr (fun key inner => table [(key, inner)]) value

/-- How values are read as what a configuration wants of them. -/
structure Reading where
  text? : Setting → Option String
  /-- An unsigned number of so many bits. -/
  word? : Nat → Setting → Option Nat
  flag? : Setting → Option Bool

/-- The reading without conversions: every value has to be of the type wanted. -/
def strict : Reading where
  text?
    | text s => some s
    | _ => none
  word? bits
    | integer n => if 0 ≤ n ∧ n < Number.wordCount bits then some n.toNat else none
    | _ => none
  flag?
    | bool b => some b
    | _ => none

/-- A field of a record; an absent one has a default. -/
def Reading.field (read? : Setting → Option α) (record : Setting) (name : String) (position : Nat)
    (default_ : α) : Option α :=
  match record.part? name position with
  | none => some default_
  | some v => read? v

end Setting

end DoubleEntry
