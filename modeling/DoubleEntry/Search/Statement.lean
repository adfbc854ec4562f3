import DoubleEntry.Search.Condition

/-!
# Statements

The text of a search in the query language of the store, and the operands bound to it. A statement
is made of fragments that are either fixed text or one operand each, so operands and placeholders
agree in number and order. Nothing that comes from a query document is part of the text.
-/

namespace DoubleEntry.Search

/-- A piece of a statement. -/
inductive Fragment where
  | text (words : String)
  | operand (value : Operand)
  deriving DecidableEq

/-- The text of a piece; an operand leaves a placeholder. -/
def Fragment.words : Fragment → String
  | text words => words
  | operand _ => "?"

/-- The operand of a piece. -/
def Fragment.operand? : Fragment → Option Operand
  | text _ => none
  | operand value => some value

/-- The text of a search and the operands in the order of their placeholders. -/
structure Statement where
  text : String
  operands : List Operand
  deriving DecidableEq

/-- Puts a statement together from its pieces. -/
def Statement.ofFragments (fragments : List Fragment) : Statement :=
  ⟨String.join (fragments.map Fragment.words), fragments.filterMap Fragment.operand?⟩

/-- The table over which a collection is searched. -/
def Namespace.table : Namespace → String
  | .accounts => "current_balances"
  | .transactions => "transactions"

/-- The sign of a relation. -/
def Relation.sign : Relation → String
  | eq => "="
  | ne => "!="
  | gt => ">"
  | gte => ">="
  | lt => "<"
  | lte => "<="

/-- The word or sign of a comparator. -/
def Comparator.sign : Comparator → String
  | relation r => r.sign
  | like false => "LIKE"
  | like true => "NOT LIKE"

/-- The name of a JSON type. -/
def JsonType.name : JsonType → String
  | null => "null"
  | true => "true"
  | false => "false"
  | integer => "integer"
  | real => "real"
  | text => "text"
  | array => "array"
  | object => "object"

/-- A text between single quotes. No text written so contains a quote. -/
def literal (s : String) : String := "'" ++ s ++ "'"

/-- Keys one inside the other, each after a dot. -/
def dotted (keys : List String) : String := String.join (keys.map fun key => "." ++ key)

/-- The name that stands for the element of a scan. -/
def scanName (scan : Nat) : String := "e" ++ toString scan

/-- The pieces of a path. -/
def Path.fragments : Path → List Fragment
  | data keys => [.operand (.text ("$" ++ dotted keys))]
  | element scan [] => [.text (scanName scan ++ ".fullkey")]
  | element scan keys =>
    [.text ("(" ++ scanName scan ++ ".fullkey || "), .operand (.text (dotted keys)), .text ")"]

/-- The pieces of a function applied to the JSON value at a path. -/
def Path.call (function table : String) (path : Path) : List Fragment :=
  .text (function ++ "(" ++ table ++ ".data, ") :: (path.fragments ++ [.text ")"])

/-- The pieces of the type of the JSON value at a path. -/
def Path.typeOf (table : String) (path : Path) : List Fragment := path.call "json_type" table

/-- The pieces of the JSON value at a path. -/
def Path.extracted (table : String) (path : Path) : List Fragment := path.call "json_extract" table

/-- The pieces of the left side of a comparison. -/
def Term.fragments (table : String) : Term → List Fragment
  | column c => [.text (table ++ "." ++ c.name)]
  | extract path => path.extracted table
  | double path => .text "CAST(" :: (path.extracted table ++ [.text " AS REAL)"])

mutual

/-- The pieces of a condition. -/
def Condition.fragments (table : String) : Condition → List Fragment
  | .compare term comparator operand =>
    term.fragments table ++ [.text (" " ++ comparator.sign ++ " "), .operand operand]
  | .hasType path type => path.typeOf table ++ [.text (" = " ++ literal type.name)]
  | .isNumber path =>
    path.typeOf table ++
      [.text (" IN (" ++ literal JsonType.integer.name ++ ", " ++ literal JsonType.real.name ++ ")")]
  | .glob path negated test =>
    path.extracted table ++
      [.text ((if negated then " NOT GLOB " else " GLOB ") ++ literal test.pattern)]
  | .isNull path negated =>
    path.extracted table ++ [.text (if negated then " IS NOT NULL" else " IS NULL")]
  | .constant false => [.text "(1 = 0)"]
  | .constant true => [.text "(1 = 1)"]
  | .not condition => .text "NOT " :: condition.fragments table
  | .all conditions => .text "(" :: (Condition.joined table " AND " conditions ++ [.text ")"])
  | .any conditions => .text "(" :: (Condition.joined table " OR " conditions ++ [.text ")"])
  | .someElement scan path condition =>
    .text ("EXISTS (SELECT 1 FROM json_each(" ++ table ++ ".data, ") ::
      (path.fragments ++ .text (") AS " ++ scanName scan ++ " WHERE ") ::
        (condition.fragments table ++ [.text ")"]))

/-- The pieces of conditions with a word between them. -/
def Condition.joined (table joiner : String) : List Condition → List Fragment
  | [] => []
  | [c] => c.fragments table
  | c :: rest => c.fragments table ++ .text joiner :: Condition.joined table joiner rest

end

/-- The columns of a search and where they come from. -/
def Namespace.selection : Namespace → String
  | .accounts =>
    "SELECT current_balances.id AS id, current_balances.balance AS balance, " ++
      "current_balances.data AS data FROM current_balances"
  | .transactions =>
    "SELECT transactions.id AS id, transactions.timestamp AS timestamp, " ++
      "transactions.data AS data, " ++
      "(SELECT json_group_array(account_id) FROM " ++
      "(SELECT lines.account_id FROM lines " ++
      "WHERE lines.transaction_id = transactions.id ORDER BY lines.id)) AS account_array, " ++
      "(SELECT json_group_array(delta) FROM " ++
      "(SELECT lines.delta FROM lines " ++
      "WHERE lines.transaction_id = transactions.id ORDER BY lines.id)) AS delta_array " ++
      "FROM transactions"

/-- The order of the rows of a search. -/
def Namespace.ordering : Namespace → String
  | .accounts => " ORDER BY current_balances.id"
  | .transactions => " ORDER BY transactions.timestamp, transactions.id"

namespace Plan

/-- The pieces of the part of the result that is asked for. A missing limit is written as `-1`. -/
def pageFragments (p : Plan) : List Fragment :=
  if p.limit.isNone && p.offset.isNone then []
  else
    let limit : Int := match p.limit with
      | some n => n
      | none => -1
    [.text " LIMIT ", .operand (.integer limit), .text " OFFSET ",
      .operand (.integer (p.offset.getD 0))]

/-- The pieces of the whole search. -/
def fragments (space : Namespace) (p : Plan) : List Fragment :=
  let conditions := match p.conditions with
    | [] => []
    | some_ => .text " WHERE " :: Condition.joined space.table " AND " some_
  .text space.selection :: (conditions ++ .text space.ordering :: p.pageFragments)

/-- The statement of a plan. -/
def statement (space : Namespace) (p : Plan) : Statement := .ofFragments (p.fragments space)

end Plan

/-- The statement of a query over a collection. -/
def Query.compile (space : Namespace) (q : Query) : Except QueryFault Statement :=
  (q.plan space).map fun plan => plan.statement space

end DoubleEntry.Search
