import DoubleEntry.Search.Pattern
import DoubleEntry.Search.Plan

/-!
# Conditions on rows

The conditions of the query language of the store: comparisons of columns and of JSON values found
by path, tests of their types, junctions, and "some element of this array". `Predicate.condition`
says with them what a predicate says. The scans of arrays are numbered in the order in which they
are opened, so that every path to an element names the scan it belongs to.
-/

namespace DoubleEntry.Search

/-- Where a JSON value lies: inside the data of the row, or inside the element of a scan. -/
inductive Path where
  | data (keys : List String)
  | element (scan : Nat) (keys : List String)
  deriving DecidableEq

/-- One key further inside. -/
def Path.child (key : String) : Path → Path
  | data keys => data (keys ++ [key])
  | element scan keys => element scan (keys ++ [key])

/-- The type of a JSON value. -/
inductive JsonType where
  | null
  | true
  | false
  | integer
  | real
  | text
  | array
  | object
  deriving DecidableEq

/-- The left side of a comparison. -/
inductive Term where
  | column (column : Column)
  /-- A JSON value as a value of the store. -/
  | extract (path : Path)
  /-- A JSON value converted to a double. -/
  | double (path : Path)
  deriving DecidableEq

/-- A condition on a row. -/
inductive Condition where
  | compare (term : Term) (comparator : Comparator) (operand : Operand)
  | hasType (path : Path) (type : JsonType)
  /-- The JSON value is a number of either type. -/
  | isNumber (path : Path)
  | glob (path : Path) (negated : Bool) (test : Glob)
  | isNull (path : Path) (negated : Bool)
  | constant (value : Bool)
  | not (condition : Condition)
  | all (conditions : List Condition)
  | any (conditions : List Condition)
  /-- Some element of the array at a path meets a condition in which `scan` stands for it. -/
  | someElement (scan : Nat) (path : Path) (condition : Condition)

namespace Condition

/-- The entry is text that looks decimal. -/
def decimalText (path : Path) : Condition :=
  .all [.glob path false .someDigit, .glob path true .someOther, .glob path true .twoDots]

/-- The entry is a number, or text that looks decimal. -/
def numberLike (path : Path) : Condition :=
  .any [.isNumber path, .all [.hasType path .text, decimalText path]]

/-- The scalar at a path equals a scalar. -/
def scalarEquals (path : Path) : Json → Condition
  | .text s =>
    .all [.hasType path .text, .compare (.extract path) (.relation .eq) (.text s)]
  | .integer n =>
    .all [.isNumber path, .compare (.extract path) (.relation .eq) (.ofInt n)]
  | .real x => .all [.isNumber path, .compare (.extract path) (.relation .eq) (.real x)]
  | .bool true => .hasType path .true
  | .bool false => .hasType path .false
  | .null => .hasType path .null
  | .array _ => .hasType path .array
  | .object _ => .hasType path .object

mutual

/-- The value at a path contains a value; `n` scans are open or closed before, and the number of
scans afterwards is given too. -/
def containing (path : Path) (n : Nat) : Json → Condition × Nat
  | .object fields =>
    let (inner, n) := containingFields path n fields
    (.all (.hasType path .object :: inner), n)
  | .array items =>
    let (inner, n) := containingItems path n items
    (.all (.hasType path .array :: inner), n)
  | scalar => (scalarEquals path scalar, n)

/-- Every item is contained in some element of the array at a path. -/
def containingItems (path : Path) (n : Nat) : List Json → List Condition × Nat
  | [] => ([], n)
  | v :: rest =>
    let (inner, m) := containing (.element (n + 1) []) (n + 1) v
    let (more, m) := containingItems path m rest
    (.someElement (n + 1) path inner :: more, m)

/-- Every field is contained in the value under its key. -/
def containingFields (path : Path) (n : Nat) : List (String × Json) → List Condition × Nat
  | [] => ([], n)
  | (key, v) :: rest =>
    let (inner, n) := containing (path.child key) n v
    let (more, n) := containingFields path n rest
    (inner :: more, n)

end

/-- The entry under a key contains a value; a scalar is also contained in an array that holds
it. -/
def entryContaining (key : String) (n : Nat) (value : Json) : Condition × Nat :=
  let path := Path.data [key]
  match value with
  | .object _ | .array _ => containing path n value
  | scalar =>
    let inner := scalarEquals (.element (n + 1) []) scalar
    (.any [scalarEquals path scalar,
      .all [.hasType path .array, .someElement (n + 1) path inner]], n + 1)

end Condition

mutual

/-- The condition of a predicate, after `n` scans. -/
def Predicate.condition (n : Nat) : Predicate → Condition × Nat
  | .column c comparator operand => (.compare (.column c) comparator operand, n)
  | .contains key value => Condition.entryContaining key n value
  | .numeric key r number =>
    let path := Path.data [key]
    (.all [.numberLike path, .compare (.double path) (.relation r) number], n)
  | .numericOrText key r number words =>
    let path := Path.data [key]
    (.any [.all [.numberLike path, .compare (.double path) (.relation r) number],
      .all [.hasType path .text, .not (.decimalText path),
        .compare (.extract path) (.relation r) (.text words)]], n)
  | .text key comparator words =>
    let path := Path.data [key]
    (.all [.hasType path .text, .compare (.extract path) comparator (.text words)], n)
  | .bool key expected => (.hasType (.data [key]) (if expected then .true else .false), n)
  | .null key negated => (.isNull (.data [key]) negated, n)
  | .anyOf [] => (.constant false, n)
  | .anyOf predicates =>
    let (inner, n) := Predicate.conditions n predicates
    (.any inner, n)
  | .allOf [] => (.constant true, n)
  | .allOf predicates =>
    let (inner, n) := Predicate.conditions n predicates
    (.all inner, n)

/-- The conditions of predicates. -/
def Predicate.conditions (n : Nat) : List Predicate → List Condition × Nat
  | [] => ([], n)
  | p :: rest =>
    let (first, n) := Predicate.condition n p
    let (more, n) := Predicate.conditions n rest
    (first :: more, n)

end

/-- The condition of each item, after `n` scans. -/
def Item.conditions (n : Nat) : List Item → List Condition × Nat
  | [] => ([], n)
  | item :: rest =>
    let (inner, n) := Predicate.conditions n item
    let (more, n) := Item.conditions n rest
    (.all inner :: more, n)

/-- The conditions that have to hold together for a row to be in the result. -/
def Plan.conditions (p : Plan) : List Condition :=
  let (must, n) := Item.conditions 0 p.must
  if p.should.isEmpty then must else must ++ [.any (Item.conditions n p.should).1]

end DoubleEntry.Search
