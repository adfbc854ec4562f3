import DoubleEntry.Proofs.Search.Constraints
import DoubleEntry.Proofs.Search.Rows

/-!
# Looking up a row by its id

A search for the row with a given id needs no column but the id. So it looks into no data and
computes the balance of that account alone, and whatever other rows are like, it answers with this
one. The id may be any text: in the query document it is escaped, and in the condition it is an
operand.
-/

namespace DoubleEntry.Search

/-- A written object is read as a query when its fields are. -/
theorem Query.ofText_render_object (fields : Json.Fields) : ofText (Json.object fields).render =
    ((Json.Reader.readBackFields? Json.Reader.strict 1 [] fields).map ofFields).getD
      (.error (.malformed "not a JSON document")) := by
  have hblank : Text.isBlankText (Json.object fields).render = false := by
    rw [Text.isBlankText, Json.render, String.toList_ofList, Json.letters, List.all_cons]
    rfl
  rw [ofText, hblank, if_neg Bool.false_ne_true, Json.parse?_render, Json.Reader.readBack?,
    if_pos (by decide)]
  cases Json.Reader.readBackFields? Json.Reader.strict 1 [] fields <;> rfl

/-- An object that is read back is a query document with the fields found. -/
theorem Query.ofText_render {fields found : Json.Fields}
    (h : Json.Reader.readBack? Json.Reader.strict 0 (.object fields) = some (.object found)) :
    ofText (Json.object fields).render = ofFields found := by
  rw [Json.Reader.readBack?, if_pos (by decide)] at h
  obtain ⟨_, hread, heq⟩ := Option.map_eq_some_iff.mp h
  obtain rfl := Json.object.inj heq
  rw [ofText_render_object, hread, Option.map_some, Option.getD_some]

namespace Constraint

/-- The constraint that the id is a given one. -/
def withId (id : String) : Constraint := field "id" "eq" (.text id)

/-- The id is compared with an operand. -/
theorem predicate_withId (space : Namespace) (id : String) :
    (withId id).predicate space = .ok (.column .id (.relation .eq) (.text id)) := rfl

/-- The query document with one comparison of a column. -/
def fieldDocument (name op : String) (v : Json) : Json :=
  .object [("must", .object [("fields", .array [.object [(name, .object [(op, v)])]])])]

/-- The document with a comparison is read as the query with that constraint when the operand is
read back. -/
theorem ofText_fieldDocument {v : Json} (name op : String)
    (h : Json.Reader.readBack? Json.Reader.strict 5 v = some v) :
    Query.ofText (fieldDocument name op v).render = .ok (field name op v).query := by
  have hdeepest : Json.Reader.strict.deepest = 127 := rfl
  have hput : Json.Reader.strict.put = Json.Fields.put := rfl
  have hdocument : Json.Reader.readBack? Json.Reader.strict 0 (fieldDocument name op v) =
      some (fieldDocument name op v) := by
    simp [fieldDocument, Json.Reader.readBack?, Json.Reader.readBackFields?,
      Json.Reader.readBackItems?, hdeepest, hput, h, Json.Fields.put]
  exact (Query.ofText_render hdocument).trans rfl

/-- The query document that asks for the row with a given id. -/
def documentWithId (id : String) : Json :=
  .object [("must", .object [("fields", .array [.object [("id", .object [("eq", .text id)])]])])]

/-- The document that asks for an id is read as the query with that constraint, whatever characters
are in the id. -/
theorem ofText_documentWithId (id : String) :
    Query.ofText (documentWithId id).render = .ok (withId id).query :=
  ofText_fieldDocument "id" "eq" rfl

end Constraint

/-- The plan of a query for an id. -/
def Plan.withId (id : String) : Plan := ⟨[[.column .id (.relation .eq) (.text id)]], [], none, none⟩

/-- A query for an id has that plan. -/
theorem Constraint.plan_withId (space : Namespace) (id : String) :
    (withId id).query.plan space = .ok (.withId id) := by
  rw [plan_query, predicate_withId]
  rfl

/-- The condition that the id is a given one. -/
def Condition.idEq (id : String) : Condition := .compare (.column .id) (.relation .eq) (.text id)

/-- Two texts compare equal when they are the same. -/
theorem Relation.admits_compare (a b : String) : eq.admits (compare a b) = decide (a = b) := by
  change (compare a b == .eq) = decide (a = b)
  rw [Bool.eq_iff_iff, beq_iff_eq, decide_eq_true_iff, compare_eq_iff_eq]

/-- The condition is true when the id is that text. -/
theorem Condition.truth_idEq {row : Row} {found : String} (hid : row.column .id = .text found)
    (id : String) (scans : Scans) :
    (idEq id).truth row scans = .ofBool (decide (found = id)) := by
  rw [idEq, truth, Term.value, hid]
  exact congrArg Truth.ofBool (Relation.admits_compare found id)

/-- No data is needed to tell. -/
theorem Condition.truthOfColumns?_idEq {column : Column → Value} {found : String}
    (hid : column .id = .text found) (id : String) :
    (idEq id).truthOfColumns? column = some (decide (found = id)) := by
  have htruth : (idEq id).truth ⟨column, .null⟩ [] = .ofBool (decide (found = id)) :=
    truth_idEq hid id []
  rw [idEq, truth, Term.value] at htruth
  rw [idEq, truthOfColumns?]
  exact congrArg some ((congrArg Truth.isYes htruth).trans (Truth.isYes_ofBool _))

namespace Plan

/-- The only condition is the one on the id. -/
theorem conditions_withId (id : String) : (withId id).conditions = [.all [.idEq id]] := rfl

/-- The account with the id passes the conditions that need the id alone, and no other does. -/
theorem admitsId_withId (id : String) (row : AccountRow) :
    (withId id).admitsId row = decide (row.id = id) := by
  have hid : accountColumn row none .id = .text row.id := rfl
  have hconjuncts : ((withId id).conjuncts.filter fun c => c.readsOnly [.id]) = [.idEq id] := rfl
  rw [admitsId, hconjuncts, List.all_cons, List.all_nil, Bool.and_true,
    Condition.truthOfColumns?_idEq hid, Option.getD_some]

/-- Whatever its data is like, a row is admitted when it has the id. -/
theorem admits_withId (space : Namespace) (id : String) {column : Column → Value} {found : String}
    (hid : column .id = .text found) (data : Option String) :
    (withId id).admits space column data = .ok (decide (found = id)) := by
  unfold admits
  cases storedValue? data with
  | some value =>
    have htruth : (Condition.idEq id).truth ⟨column, value⟩ [] = .ofBool (decide (found = id)) :=
      Condition.truth_idEq hid id []
    simp [Condition.allMet, conditions_withId, Condition.isYes_truthOfAll, Condition.truth, htruth]
  | none =>
    have hfirst : (withId id).inOrder space = [.idEq id] := by cases space <;> rfl
    rw [hfirst, Condition.allOfColumns?, Condition.truthOfColumns?_idEq hid]
    cases decide (found = id) <;> rfl

/-- Of accounts with different ids the rows of the plan are the one with the id, if it has a
balance. -/
theorem accountRows_withId {t : Tables} (hnodup : (t.accounts.map AccountRow.id).Nodup)
    {row : AccountRow} (hrow : row ∈ t.accounts) :
    (withId row.id).accountRows t =
      match t.balance? row.id with
      | none => .error .totalOverflow
      | some balance => .ok [(row, balance)] := by
  have hperm : (accountsInOrder t).Perm t.accounts := List.mergeSort_perm _ _
  have honly : (accountsInOrder t).filter (withId row.id).admitsId = [row] := by
    simp only [funext (admitsId_withId row.id)]
    exact filter_eq_singleton_of_nodup ((hperm.map _).nodup_iff.mpr hnodup) (hperm.mem_iff.mpr hrow)
  have hsome : (withId row.id).isEmpty = false := rfl
  unfold accountRows
  rw [if_neg (by simp [hsome]), honly, List.mapM_cons, List.mapM_nil, withBalance]
  cases t.balance? row.id with
  | none => rfl
  | some balance =>
    have hadmits : ∀ p ∈ [(row, balance)],
        (withId row.id).admits .accounts (accountColumn p.1 (some p.2)) (some p.1.data) =
          .ok ((fun _ => true) p) := by
      intro p hp
      obtain rfl := List.mem_singleton.mp hp
      have hid : accountColumn row (some balance) .id = .text row.id := rfl
      rw [admits_withId .accounts row.id hid, decide_eq_true rfl]
    exact Store.bind_of_eq_ok (filterM_eq_ok hadmits)

/-- Of headers with different ids the one of the plan is that with the id. -/
theorem headers_withId {t : Tables} (hnodup : (t.headers.map Header.id).Nodup) {header : Header}
    (hheader : header ∈ t.headers) : (withId header.id).headers t = .ok [header] := by
  have hperm : (headersInOrder t).Perm t.headers := List.mergeSort_perm _ _
  have hadmits : ∀ row ∈ headersInOrder t,
      (withId header.id).admits .transactions (headerColumn row) row.data =
        .ok ((fun row => decide (row.id = header.id)) row) := by
    intro row _
    have hid : headerColumn row .id = .text row.id := rfl
    exact admits_withId .transactions header.id hid row.data
  have honly : (headersInOrder t).filter (fun row => row.id = header.id) = [header] :=
    filter_eq_singleton_of_nodup ((hperm.map _).nodup_iff.mpr hnodup) (hperm.mem_iff.mpr hheader)
  have hsome : (withId header.id).isEmpty = false := rfl
  unfold Plan.headers
  rw [if_neg (by simp [hsome]), Store.bind_of_eq_ok (filterM_eq_ok hadmits), honly]
  rfl

end Plan

/-- In an open store a search for the id of an account finds it, alone, if it has a balance and its
data can be read. -/
theorem run_accounts_withId {text : String} {s : Store} {row : AccountRow}
    (hquery : Query.ofText text = .ok (Constraint.withId row.id).query) (hopen : s.isOpen = true)
    (hnodup : (s.tables.accounts.map AccountRow.id).Nodup) (hrow : row ∈ s.tables.accounts) :
    run .accounts text s =
      match s.tables.balance? row.id with
      | none => .error (.store .totalOverflow)
      | some balance => (Data.ofStored (some row.data)).map fun data =>
          .accounts [⟨row.id, balance, data⟩] := by
  rw [run, hquery, Except.mapError, Store.bind_of_eq_ok rfl, Constraint.plan_withId,
    Except.mapError, Store.bind_of_eq_ok rfl, Plan.run_of_open hopen]
  dsimp only
  rw [Plan.accountRows_withId hnodup hrow]
  cases s.tables.balance? row.id with
  | none => rfl
  | some balance =>
    dsimp only [Except.mapError]
    rw [Store.bind_of_eq_ok rfl, List.mapM_cons, List.mapM_nil, readAccount]
    cases Data.ofStored (some row.data) <;> rfl

/-- In an open store a search for the id of a transaction finds it, alone, if it can be read. -/
theorem run_transactions_withId {text : String} {s : Store} {header : Header}
    (hquery : Query.ofText text = .ok (Constraint.withId header.id).query)
    (hopen : s.isOpen = true) (hnodup : (s.tables.headers.map Header.id).Nodup)
    (hheader : header ∈ s.tables.headers) :
    run .transactions text s =
      (readTransaction (transactionRow s.tables header)).map fun row => .transactions [row] := by
  rw [run, hquery, Except.mapError, Store.bind_of_eq_ok rfl, Constraint.plan_withId,
    Except.mapError, Store.bind_of_eq_ok rfl, Plan.run_of_open hopen]
  dsimp only
  rw [Plan.headers_withId hnodup hheader]
  dsimp only [Except.mapError]
  rw [Store.bind_of_eq_ok rfl, List.mapM_cons, List.mapM_nil]
  cases readTransaction (transactionRow s.tables header) <;> rfl

end DoubleEntry.Search
