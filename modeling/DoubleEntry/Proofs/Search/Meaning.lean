import DoubleEntry.Search.Evaluation

/-!
# The meaning of predicates

What a predicate says about a row, told in two truth values and without conditions: an entry is a
number, a text or something else, it compares or not, it contains a value or not.

Values are read as the store reads them: texts of entries end at their first NUL, and integers beyond
a signed word are doubles.
-/

namespace DoubleEntry.Search

open Number (Binary64)

/-! ## What predicates say -/

/-- Whether a value compares with an operand as asked. Nothing compares with a missing value, and
only texts are matched with a pattern. -/
def Comparator.holds (value : Value) (operand : Operand) : Comparator → Bool
  | relation r => (value.cmp? operand).any r.admits
  | like negated =>
    match value, operand with
    | .text s, .text pattern => Pattern.isLike pattern s != negated
    | _, _ => false

namespace Entry

/-- The text that an entry is. -/
def words? : Json → Option String
  | .text s => some (String.ofList (untilNul s))
  | _ => none

/-- The number that an entry is. -/
def number? : Json → Option Value
  | .integer n => some (.integer n)
  | .real x => some (.real x)
  | _ => none

/-- The double that an entry is, or that its text spells as an unsigned decimal. -/
def double? : Json → Option Binary64
  | .integer n => some (Binary64.ofInt n)
  | .real x => some x
  | .text s =>
    let cs := untilNul s
    if isDecimal cs then some (decimalNumeral false cs).extended else none
  | _ => none

/-- Whether an entry has the type and the value of a scalar. -/
def isScalar (entry : Json) : Json → Bool
  | .null =>
    match entry with
    | .null => true
    | _ => false
  | .bool b =>
    match entry with
    | .bool c => c == b
    | _ => false
  | .text s => words? entry = some s
  | .integer n => (number? entry).any fun v => v.cmp? (.ofInt n) = some .eq
  | .real x => (number? entry).any fun v => v.cmp? (.real x) = some .eq
  | .array _ | .object _ => false

mutual

/-- Whether a value is contained in an entry: objects key by key, every item of an array in some
element, and scalars by type and value. -/
def contains (entry : Json) : Json → Bool
  | .object fields =>
    match entry with
    | .object found => containsFields found fields
    | _ => false
  | .array items =>
    match entry with
    | .array found => containsItems found items
    | _ => false
  | scalar => isScalar entry scalar

/-- Whether every item is contained in some element. -/
def containsItems (found : List Json) : List Json → Bool
  | [] => true
  | v :: rest => (found.any fun element => contains element v) && containsItems found rest

/-- Whether every field is contained in the entry under its key. -/
def containsFields (found : Json.Fields) : List (String × Json) → Bool
  | [] => true
  | (key, v) :: rest =>
    ((Json.Fields.get? key found).any fun entry => contains entry v) && containsFields found rest

end

/-- Whether an entry is an array with an element that passes a test. -/
def anyElement (test : Json → Bool) : Json → Bool
  | .array found => found.any test
  | _ => false

/-- Whether a value is contained in an entry of the data map; there a scalar is also contained in an
array that holds it. -/
def containsTop (entry : Json) : Json → Bool
  | .object fields => contains entry (.object fields)
  | .array items => contains entry (.array items)
  | scalar => isScalar entry scalar || anyElement (fun element => isScalar element scalar) entry

end Entry

/-- The entry of the data of a row under a key. -/
def Row.entry? (row : Row) (key : String) : Option Json := entryAt? [key] row.data

mutual

/-- Whether a predicate holds of a row. -/
def Predicate.holds (row : Row) : Predicate → Bool
  | .column c comparator operand => comparator.holds (row.column c) operand
  | .contains key value => (row.entry? key).any fun entry => Entry.containsTop entry value
  | .numeric key r number =>
    ((row.entry? key).bind Entry.double?).any fun x => (Comparator.relation r).holds (.real x) number
  | .numericOrText key r number words =>
    match (row.entry? key).bind Entry.double? with
    | some x => (Comparator.relation r).holds (.real x) number
    | none =>
      ((row.entry? key).bind Entry.words?).any fun s =>
        (Comparator.relation r).holds (.text s) (.text words)
  | .text key comparator words =>
    ((row.entry? key).bind Entry.words?).any fun s => comparator.holds (.text s) (.text words)
  | .bool key expected => (row.entry? key).any fun entry => Entry.isScalar entry (.bool expected)
  | .null key negated => ((row.entry? key).all fun entry => Entry.isScalar entry .null) != negated
  | .anyOf predicates => Predicate.anyHolds row predicates
  | .allOf predicates => Predicate.allHold row predicates

/-- Whether some predicate holds of a row. -/
def Predicate.anyHolds (row : Row) : List Predicate → Bool
  | [] => false
  | p :: rest => Predicate.holds row p || Predicate.anyHolds row rest

/-- Whether all predicates hold of a row. -/
def Predicate.allHold (row : Row) : List Predicate → Bool
  | [] => true
  | p :: rest => Predicate.holds row p && Predicate.allHold row rest

end

/-- Some predicate holds when it is one of them. -/
theorem Predicate.anyHolds_eq_any (row : Row) (ps : List Predicate) :
    Predicate.anyHolds row ps = ps.any (Predicate.holds row) := by
  induction ps with
  | nil => rfl
  | cons p rest ih => rw [anyHolds, List.any_cons, ih]

/-- All predicates hold when each of them does. -/
theorem Predicate.allHold_eq_all (row : Row) (ps : List Predicate) :
    Predicate.allHold row ps = ps.all (Predicate.holds row) := by
  induction ps with
  | nil => rfl
  | cons p rest ih => rw [allHold, List.all_cons, ih]

/-- An entry is null when it has that type. -/
theorem Entry.isScalar_null (v : Json) : isScalar v .null = decide (JsonType.of v = .null) := by
  cases v with
  | bool b => cases b <;> rfl
  | _ => rfl

/-- An entry is a Boolean when it has the type of that Boolean. -/
theorem Entry.isScalar_bool (v : Json) (b : Bool) :
    isScalar v (.bool b) = decide (JsonType.of v = if b then .true else .false) := by
  cases v with
  | bool c => cases b <;> cases c <;> rfl
  | _ => cases b <;> rfl

end DoubleEntry.Search
