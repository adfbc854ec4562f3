import DoubleEntry.Json.Writer
import DoubleEntry.Search.Condition
import DoubleEntry.Search.Truth

/-!
# The truth of a condition on a row

Conditions are evaluated on the columns of a row and on its data. A path that leads nowhere, or to
`null`, gives a missing value, which makes comparisons unknown; a row meets a condition when it is
true. On a row whose data cannot be read only those conditions have a truth that need not look at
the data.
-/

namespace DoubleEntry.Search

open Number (Binary64)

/-- The columns and the data of a row. -/
structure Row where
  column : Column → Value
  data : Json

/-- The elements that stand for the open scans. -/
abbrev Scans := List (Nat × Json)

/-- The value under keys one inside the other. -/
def entryAt? (keys : List String) (v : Json) : Option Json :=
  match keys with
  | [] => some v
  | key :: rest =>
    match v with
    | .object fields => (Json.Fields.get? key fields).bind (entryAt? rest)
    | _ => none

/-- The value at a path. -/
def Path.find? (row : Row) (scans : Scans) : Path → Option Json
  | data keys => entryAt? keys row.data
  | element scan keys => (scans.lookup scan).bind (entryAt? keys)

/-- The type of a value. -/
def JsonType.of : Json → JsonType
  | .null => null
  | .bool b => if b then JsonType.true else JsonType.false
  | .integer _ => integer
  | .real _ => real
  | .text _ => text
  | .array _ => array
  | .object _ => object

namespace Value

/-- A JSON value as a value of the store: Booleans are one and zero, a text ends at its first NUL, and
arrays and objects are their texts. -/
def ofJson : Json → Value
  | .null => null
  | .bool b => integer b.toNat
  | .integer n => integer n
  | .real x => real x
  | .text s => text (String.ofList (untilNul s))
  | v => text v.render

/-- A value converted to a double. Text that looks decimal is read as such; conditions ask for no
other text to be converted, and it counts as zero. -/
def toDouble : Value → Value
  | null => null
  | integer n => real (Binary64.ofInt n)
  | real x => real x
  | text s =>
    let cs := untilNul s
    real (if looksDecimal cs then (decimalNumeral false cs).extended else Binary64.zero false)

end Value

/-- The truth of a comparison. -/
def Comparator.truth (value : Value) (operand : Operand) : Comparator → Truth
  | relation r =>
    match value.cmp? operand with
    | some o => .ofBool (r.admits o)
    | none => .unknown
  | like negated =>
    match value, operand with
    | .null, _ => .unknown
    | .text s, .text pattern => .ofBool (Pattern.isLike pattern s != negated)
    | _, _ => .ofBool negated

/-- The value at the left side of a comparison. -/
def Term.value (row : Row) (scans : Scans) : Term → Value
  | column c => row.column c
  | extract path => Value.ofJson ((path.find? row scans).getD .null)
  | double path => (Value.ofJson ((path.find? row scans).getD .null)).toDouble

/-- The truth of a test for the characters of a value; conditions ask for it of texts only, and
nothing else passes. -/
def Glob.truth (value : Value) (negated : Bool) (test : Glob) : Truth :=
  match value with
  | .null => .unknown
  | .text s => .ofBool (test.admits (untilNul s) != negated)
  | _ => .ofBool negated

namespace Condition

mutual

/-- The truth of a condition. -/
def truth (row : Row) (scans : Scans) : Condition → Truth
  | .compare term comparator operand => comparator.truth (term.value row scans) operand
  | .hasType path type =>
    match path.find? row scans with
    | some v => .ofBool (JsonType.of v = type)
    | none => .unknown
  | .isNumber path =>
    match path.find? row scans with
    | some v => .ofBool (JsonType.of v = .integer || JsonType.of v = .real)
    | none => .unknown
  | .glob path negated test => test.truth ((Term.extract path).value row scans) negated
  | .isNull path negated =>
    .ofBool (((Term.extract path).value row scans = .null) != negated)
  | .constant value => .ofBool value
  | .not condition => (condition.truth row scans).not
  | .all conditions => truthOfAll row scans conditions
  | .any conditions => truthOfAny row scans conditions
  | .someElement scan path condition =>
    match path.find? row scans with
    | some (.array items) =>
      .ofBool (items.any fun v => (condition.truth row ((scan, v) :: scans)).isYes)
    | _ => .no

/-- The truth of a conjunction. -/
def truthOfAll (row : Row) (scans : Scans) : List Condition → Truth
  | [] => .yes
  | c :: rest => (c.truth row scans).and (truthOfAll row scans rest)

/-- The truth of a disjunction. -/
def truthOfAny (row : Row) (scans : Scans) : List Condition → Truth
  | [] => .no
  | c :: rest => (c.truth row scans).or (truthOfAny row scans rest)

end

mutual

/-- The truth of a condition that is evaluated from left to right, as far as needed, without looking
at the data of the row. -/
def truthOfColumns? (column : Column → Value) : Condition → Option Bool
  | .compare (.column c) comparator operand =>
    some (comparator.truth (column c) operand).isYes
  | .constant value => some value
  | .all conditions => allOfColumns? column conditions
  | .any conditions => anyOfColumns? column conditions
  | _ => none

/-- The truth of a conjunction evaluated so. -/
def allOfColumns? (column : Column → Value) : List Condition → Option Bool
  | [] => some true
  | c :: rest =>
    match c.truthOfColumns? column with
    | some true => allOfColumns? column rest
    | other => other

/-- The truth of a disjunction evaluated so. -/
def anyOfColumns? (column : Column → Value) : List Condition → Option Bool
  | [] => some false
  | c :: rest =>
    match c.truthOfColumns? column with
    | some false => anyOfColumns? column rest
    | other => other

end

mutual

/-- Whether a condition looks at no columns but the given ones, and not at the data. -/
def readsOnly (columns : List Column) : Condition → Bool
  | .compare (.column c) _ _ => columns.contains c
  | .constant _ => true
  | .not condition => condition.readsOnly columns
  | .all conditions | .any conditions => allReadOnly columns conditions
  | _ => false

/-- Whether conditions look at no columns but the given ones, and not at the data. -/
def allReadOnly (columns : List Column) : List Condition → Bool
  | [] => true
  | c :: rest => c.readsOnly columns && allReadOnly columns rest

end

mutual

/-- Whether a condition scans an array. -/
def opensScan : Condition → Bool
  | .someElement _ _ _ => true
  | .not condition => condition.opensScan
  | .all conditions | .any conditions => someOpensScan conditions
  | _ => false

/-- Whether one of some conditions scans an array. -/
def someOpensScan : List Condition → Bool
  | [] => false
  | c :: rest => c.opensScan || someOpensScan rest

end

mutual

/-- Whether a row that is held against a condition, from left to right and as far as needed, comes to
a search pattern that is too long. -/
def triesLong (row : Row) (scans : Scans) : Condition → Bool
  | .compare _ (.like _) (.text pattern) => Pattern.isTooLong pattern
  | .not condition => condition.triesLong row scans
  | .all conditions => allTryLong row scans conditions
  | .any conditions => anyTryLong row scans conditions
  | .someElement scan path condition =>
    match path.find? row scans with
    | some (.array items) => items.any fun v => condition.triesLong row ((scan, v) :: scans)
    | _ => false
  | _ => false

/-- Whether a row comes to such a pattern in a conjunction, which ends with the first condition that
is not true. -/
def allTryLong (row : Row) (scans : Scans) : List Condition → Bool
  | [] => false
  | c :: rest =>
    c.triesLong row scans || ((c.truth row scans).isYes && allTryLong row scans rest)

/-- Whether a row comes to such a pattern in a disjunction, which ends with the first condition that
is true. -/
def anyTryLong (row : Row) (scans : Scans) : List Condition → Bool
  | [] => false
  | c :: rest =>
    c.triesLong row scans || (!(c.truth row scans).isYes && anyTryLong row scans rest)

end

mutual

/-- The conditions that a condition joins by "and", on all levels. -/
def conjuncts : Condition → List Condition
  | .all conditions => conjunctsOf conditions
  | .any [c] => c.conjuncts
  | c => [c]

/-- The conditions that conditions join by "and", on all levels. -/
def conjunctsOf : List Condition → List Condition
  | [] => []
  | c :: rest => c.conjuncts ++ conjunctsOf rest

end

/-- Whether a row meets conditions all together. -/
def allMet (row : Row) (conditions : List Condition) : Bool :=
  (truthOfAll row [] conditions).isYes

end Condition

end DoubleEntry.Search
