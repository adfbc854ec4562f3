import DoubleEntry.Search.Predicate

/-!
# Plans

A query document with all its items turned into predicates. An item is a list of predicates that
have to hold together; items without predicates say nothing and are left out. The first fault in
the order of the document is the one reported, `must` before `should`.
-/

namespace DoubleEntry.Search

/-- Predicates that have to hold together. -/
abbrev Item := List Predicate

/-- A query with its constraints checked. -/
structure Plan where
  must : List Item
  should : List Item
  limit : Option Nat
  offset : Option Nat

namespace Item

/-- The item of comparisons of columns. -/
def ofFields (space : Namespace) (item : Comparisons) : Except QueryFault Item :=
  List.flatten <$> item.mapM fun (name, comparisons) => do
    Predicate.checkKey name
    let column ← Column.ofName space name
    comparisons.mapM fun (op, operand) => Predicate.ofField column op operand

/-- The item of values to be contained. -/
def ofTerms (item : Json.Fields) : Except QueryFault Item :=
  item.mapM fun (key, value) => Predicate.ofTerm key value

/-- The item of comparisons of entries. -/
def ofRanges (item : Comparisons) : Except QueryFault Item :=
  List.flatten <$> item.mapM fun (key, comparisons) => do
    Predicate.checkKey key
    comparisons.mapM fun (op, operand) => Predicate.ofRange key op operand

end Item

/-- The items of a group that say something. -/
def Clause.items (space : Namespace) (c : Clause) : Except QueryFault (List Item) := do
  let fields ← c.fields.mapM (Item.ofFields space)
  let terms ← c.terms.mapM Item.ofTerms
  let ranges ← c.ranges.mapM Item.ofRanges
  return (fields ++ terms ++ ranges).filter fun item => !item.isEmpty

/-- Checks a query against a collection. Negative bounds count as zero. -/
def Query.plan (space : Namespace) (q : Query) : Except QueryFault Plan := do
  let must ← q.must.items space
  let should ← q.should.items space
  return ⟨must, should, q.size.map Int.toNat, q.skip.map Int.toNat⟩

end DoubleEntry.Search
