import DoubleEntry.DataKey
import DoubleEntry.Number.Numeral
import DoubleEntry.Search.Namespace
import DoubleEntry.Search.Query
import DoubleEntry.Search.Value
import DoubleEntry.Time.Text

/-!
# Predicates

What the items of a query say about a row, with every key, column, operator and operand checked.
`Predicate.ofColumn`, `ofEntry` and `ofTerm` hold the rules of the query language: which operator
goes with which subject, and which operands it takes.
-/

namespace DoubleEntry.Search

open Number (Binary64 Numeral)
open Time (Timestamp)

/-- A column that can be searched. -/
inductive Column where
  | id
  | balance
  | timestamp
  deriving DecidableEq

namespace Column

/-- The name of a column. -/
def name : Column → String
  | id => "id"
  | balance => "balance"
  | timestamp => "timestamp"

/-- The column of a collection with the given name. -/
def ofName (space : Namespace) (name : String) : Except QueryFault Column :=
  if name = id.name then .ok id
  else if space = .accounts ∧ name = balance.name then .ok balance
  else if space = .transactions ∧ name = timestamp.name then .ok timestamp
  else .error (.unknownField name space.name)

end Column

/-- A test between a value and one operand. -/
inductive Comparator where
  | relation (r : Relation)
  | like (negated : Bool)
  deriving DecidableEq

/-- An operator of the query language. -/
inductive Operator where
  | compare (c : Comparator)
  /-- Membership in a list, or its opposite. -/
  | member (negated : Bool)
  /-- Being null, or its opposite. -/
  | null (negated : Bool)
  deriving DecidableEq

namespace Operator

/-- The operators by name. -/
def names : List (String × Operator) :=
  [("eq", .compare (.relation .eq)), ("ne", .compare (.relation .ne)),
    ("gt", .compare (.relation .gt)), ("gte", .compare (.relation .gte)),
    ("lt", .compare (.relation .lt)), ("lte", .compare (.relation .lte)),
    ("like", .compare (.like false)), ("notlike", .compare (.like true)),
    ("in", .member false), ("nin", .member true), ("is", .null false), ("isnot", .null true)]

/-- The operator with the given name. -/
def ofName (name : String) : Except QueryFault Operator :=
  match names.lookup name with
  | some op => .ok op
  | none => .error (.unknownOperator name)

end Operator

/-- What an item says about a row. -/
inductive Predicate where
  | column (column : Column) (comparator : Comparator) (operand : Operand)
  /-- The entry contains a JSON value. -/
  | contains (key : String) (value : Json)
  /-- The entry is a number, or text that looks decimal, and compares as a number. -/
  | numeric (key : String) (relation : Relation) (number : Operand)
  /-- As `numeric`, or the entry is any other text and compares as text. -/
  | numericOrText (key : String) (relation : Relation) (number : Operand) (text : String)
  /-- The entry is text and compares as text. -/
  | text (key : String) (comparator : Comparator) (text : String)
  | bool (key : String) (expected : Bool)
  /-- The entry is absent or null, or its opposite. -/
  | null (key : String) (negated : Bool)
  /-- Some of the predicates; never, if there are none. -/
  | anyOf (predicates : List Predicate)
  /-- All of the predicates; always, if there are none. -/
  | allOf (predicates : List Predicate)

/-- An integer as an operand: exact if it fits a signed word, else as a double. -/
def Operand.ofInt (n : Int) : Operand :=
  if fitsSigned n then integer n else real (Binary64.ofInt n)

/-- A JSON number as an operand. -/
def Operand.ofNumber? : Json → Option Operand
  | .integer n => some (ofInt n)
  | .real x => some (real x)
  | _ => none

/-- The numeral of an unsigned decimal text with the given sign. -/
def decimalNumeral (negative : Bool) (cs : List Char) : Numeral :=
  let values (ds : List Char) : List Nat := ds.map fun c => c.toNat - 48
  ⟨negative, values (cs.takeWhile Char.isDigit), values ((cs.dropWhile Char.isDigit).drop 1), 0⟩

/-- Whether characters are an unsigned decimal, as operands are: at least one digit, and nothing but
digits and at most one dot. -/
def isDecimal (cs : List Char) : Bool :=
  cs.any Char.isDigit && (cs.all fun c => c.isDigit || c == '.') && decide (cs.count '.' ≤ 1)

/-- A text as a number: an optional minus and an unsigned decimal. Without a dot it is an integer
if it fits a signed word. -/
def Operand.ofDecimal? (text : String) : Option Operand :=
  let (negative, digits) := match text.toList with
    | '-' :: rest => (true, rest)
    | all => (false, all)
  if isDecimal digits then
    let numeral := decimalNumeral negative digits
    let size : Int := Number.ofDigits numeral.whole
    let n := if negative then -size else size
    if digits.all Char.isDigit && fitsSigned n then some (integer n)
    else some (real numeral.nearest)
  else none

namespace Predicate

/-- A membership list taken apart: the predicates of its elements joined by "or", or those of the
opposite relation joined by "and". -/
def ofMembers (negated : Bool) (each : Relation → Json → Except QueryFault Predicate)
    (elements : List Json) : Except QueryFault Predicate :=
  if negated then allOf <$> elements.mapM (each .ne) else anyOf <$> elements.mapM (each .eq)

/-- A timestamp operand in ledger form, so that its text compares like the time; any other text as
it is, so that a date alone is a lower bound for its day. -/
def canonicalTime (text : String) : String :=
  match Timestamp.parse? text with
  | some t => t.render
  | none => text

/-- A column compared with one operand, under the operator's name in the document. -/
def ofColumn (column : Column) (comparator : Comparator) (op : String) (operand : Json) :
    Except QueryFault Predicate :=
  match column, comparator with
  | .balance, .like _ => .error (.operand op column.name .textColumn)
  | .balance, _ =>
    match Operand.ofNumber? operand with
    | some number => .ok (.column column comparator number)
    | none => .error (.operand op column.name .number)
  | .timestamp, .relation _ =>
    match operand with
    | .text s => .ok (.column column comparator (.text (canonicalTime s)))
    | _ => .error (.operand op column.name .string)
  | _, _ =>
    match operand with
    | .text s => .ok (.column column comparator (.text s))
    | _ => .error (.operand op column.name .string)

/-- An entry of the data map compared with one operand. -/
def ofEntry (key : String) (comparator : Comparator) (op : String) (operand : Json) :
    Except QueryFault Predicate :=
  match comparator, operand with
  | .like _, .text pattern => .ok (.text key comparator pattern)
  | .like _, _ => .error (.operand op key .pattern)
  | .relation r, .text s =>
    match Operand.ofDecimal? s with
    | some number => .ok (.numericOrText key r number s)
    | none => .ok (.text key comparator s)
  | .relation .eq, .bool b => .ok (.bool key b)
  | .relation .ne, .bool b => .ok (.bool key !b)
  | .relation _, .bool _ => .error (.operand op key .numberOrString)
  | .relation r, _ =>
    match Operand.ofNumber? operand with
    | some number => .ok (.numeric key r number)
    | none => .error (.operand op key .scalar)

/-- Finds fault with a key of a query. -/
def checkKey (key : String) : Except QueryFault Unit :=
  if DataKey.isValid key then .ok () else .error (.invalidKey key)

mutual

/-- Finds fault with a key anywhere inside a value. -/
def checkInside : Json → Except QueryFault Unit
  | .object fields => checkFields fields
  | .array items => checkItems items
  | _ => .ok ()

/-- Finds fault with a key anywhere inside items. -/
def checkItems : List Json → Except QueryFault Unit
  | [] => .ok ()
  | v :: rest => do
    checkInside v
    checkItems rest

/-- Finds fault with a key of the fields or anywhere inside them. -/
def checkFields : List (String × Json) → Except QueryFault Unit
  | [] => .ok ()
  | (key, v) :: rest => do
    checkKey key
    checkInside v
    checkFields rest

end

/-- A value that an entry has to contain. -/
def ofTerm (key : String) (value : Json) : Except QueryFault Predicate := do
  checkKey key
  checkInside value
  return .contains key value

/-- The elements of a membership list. -/
def members (op subject : String) : Json → Except QueryFault (List Json)
  | .array elements => .ok elements
  | _ => .error (.operand op subject .array)

/-- One operator of a column with its operand. -/
def ofField (column : Column) (op : String) (operand : Json) : Except QueryFault Predicate := do
  match ← Operator.ofName op with
  | .compare c => ofColumn column c op operand
  | .member negated =>
    ofMembers negated (fun r => ofColumn column (.relation r) op) (← members op column.name operand)
  | .null _ => .error (.unsupported op column.name)

/-- One operator of an entry with its operand. -/
def ofRange (key op : String) (operand : Json) : Except QueryFault Predicate := do
  match ← Operator.ofName op with
  | .compare c => ofEntry key c op operand
  | .member negated =>
    ofMembers negated (fun r => ofEntry key (.relation r) op) (← members op key operand)
  | .null negated =>
    match operand with
    | .null => return .null key negated
    | _ => .error (.operand op key .null)

end Predicate

end DoubleEntry.Search
