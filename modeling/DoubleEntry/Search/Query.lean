import DoubleEntry.Fault
import DoubleEntry.Json.Reader
import DoubleEntry.Text.Blank

/-!
# Query documents

A search is described by a JSON object with two groups of constraints, of which every item in `must`
and some item in `should` has to hold, and with the part of the result that is asked for. The groups
may be wrapped in a `query` object or stand beside `from` and `size`, but not both. A blank document
asks for everything, and `null` stands for an absent part.
-/

namespace DoubleEntry.Search

/-- Operators with their operands, by subject. -/
abbrev Comparisons := List (String × Json.Fields)

/-- A group of constraints. -/
structure Clause where
  /-- Comparisons of columns. -/
  fields : List Comparisons
  /-- Values that entries of the data map have to contain. -/
  terms : List Json.Fields
  /-- Comparisons of entries of the data map. -/
  ranges : List Comparisons

/-- A query document that has been read. -/
structure Query where
  must : Clause
  should : Clause
  /-- How many rows to leave out at the front. -/
  skip : Option Int
  /-- How many rows to give at most. -/
  size : Option Int

namespace Clause

/-- A group without constraints. -/
def empty : Clause := ⟨[], [], []⟩

/-- Whether a group has no items. -/
def isEmpty (c : Clause) : Bool := c.fields.isEmpty && c.terms.isEmpty && c.ranges.isEmpty

end Clause

/-- The fields of an object. -/
def fields? : Json → Option Json.Fields
  | .object fields => some fields
  | _ => none

/-- Reads an object whose values are objects. -/
def comparisons? (v : Json) : Option Comparisons := do
  (← fields? v).mapM fun (key, w) => return (key, ← fields? w)

/-- Reads a list that may be left out or null. -/
def list? {α : Type} (item? : Json → Option α) : Option Json → Option (List α)
  | none | some .null => some []
  | some (.array items) => items.mapM item?
  | some _ => none

/-- Whether an integer fits a signed 64-bit word. -/
def fitsSigned (n : Int) : Bool := decide (-Number.wordCount 63 ≤ n ∧ n < Number.wordCount 63)

/-- Reads a signed 64-bit integer that may be left out or null. -/
def bound? : Option Json → Option (Option Int)
  | none | some .null => some none
  | some (.integer n) => if fitsSigned n then some (some n) else none
  | some _ => none

/-- Whether an object has only the given keys. -/
def hasOnly (keys : List String) (fields : Json.Fields) : Bool :=
  fields.keys.all fun key => keys.contains key

/-- Reads a group. -/
def Clause.ofFields? (group : Json.Fields) : Option Clause :=
  if hasOnly ["fields", "terms", "ranges"] group then do
    let fields ← list? comparisons? (group.get? "fields")
    let terms ← list? fields? (group.get? "terms")
    let ranges ← list? comparisons? (group.get? "ranges")
    some ⟨fields, terms, ranges⟩
  else none

/-- Reads a group that may be left out or null. -/
def group? : Option Json → Option (Option Clause)
  | none | some .null => some none
  | some (.object group) => (Clause.ofFields? group).map some
  | some _ => none

/-- Reads the two groups inside a `query` wrapper, which may be left out or null. -/
def wrapped? : Option Json → Option (Option (Clause × Clause))
  | none | some .null => some none
  | some (.object wrapper) =>
    if hasOnly ["must", "should"] wrapper then do
      let must ← group? (Json.Fields.get? "must" wrapper)
      let should ← group? (Json.Fields.get? "should" wrapper)
      some (some (must.getD .empty, should.getD .empty))
    else none
  | some _ => none

/-- Finds fault with a part that is there and is neither an object nor null. -/
def checkPart (name : String) : Option Json → Except QueryFault Unit
  | none | some .null | some (.object _) => .ok ()
  | some _ => .error (.partNotAnObject name)

namespace Query

/-- The query that asks for everything. -/
def everything : Query := ⟨.empty, .empty, none, none⟩

/-- Whether neither group has items. -/
def isEverything (q : Query) : Bool := q.must.isEmpty && q.should.isEmpty

/-- Checks that the wrapper and all groups are objects where they are there at all. -/
def checkShape (document : Json.Fields) : Except QueryFault Unit := do
  checkPart "query" (document.get? "query")
  checkPart "must" (document.get? "must")
  checkPart "should" (document.get? "should")
  match document.get? "query" with
  | some (.object wrapper) =>
    checkPart "must" (Json.Fields.get? "must" wrapper)
    checkPart "should" (Json.Fields.get? "should" wrapper)
  | _ => .ok ()

/-- The parts of a document: the wrapped groups, the groups at the top, and the bounds. -/
structure Parts where
  wrapped : Option (Clause × Clause)
  must : Option Clause
  should : Option Clause
  skip : Option Int
  size : Option Int

/-- Reads the parts of a document. -/
def Parts.ofFields? (document : Json.Fields) : Option Parts :=
  if hasOnly ["query", "must", "should", "from", "size"] document then do
    let wrapped ← wrapped? (document.get? "query")
    let must ← group? (document.get? "must")
    let should ← group? (document.get? "should")
    let skip ← bound? (document.get? "from")
    let size ← bound? (document.get? "size")
    some ⟨wrapped, must, should, skip, size⟩
  else none

/-- Puts a query together from its parts. -/
def ofParts (p : Parts) : Except QueryFault Query :=
  match p.wrapped with
  | some (must, should) =>
    if p.must.isSome || p.should.isSome then .error .twoShapes
    else .ok ⟨must, should, p.skip, p.size⟩
  | none => .ok ⟨p.must.getD .empty, p.should.getD .empty, p.skip, p.size⟩

/-- Reads the fields of a query document. -/
def ofFields (document : Json.Fields) : Except QueryFault Query := do
  checkShape document
  match Parts.ofFields? document with
  | some parts => ofParts parts
  | none => .error (.malformed "a part is unknown or has the wrong type")

/-- Reads a query document. -/
def ofText (text : String) : Except QueryFault Query :=
  if Text.isBlankText text then .ok everything
  else match Json.parse? text with
    | none => .error (.malformed "not a JSON document")
    | some (.object document) => ofFields document
    | some _ => .error .notAnObject

end Query

end DoubleEntry.Search
