import DoubleEntry.Proofs.Json.Covering
import DoubleEntry.Proofs.Search.Columns
import DoubleEntry.Proofs.Search.Rows
import DoubleEntry.Proofs.Search.Translation

/-!
# Searching readable tables

When every row of the tables can be read, every search succeeds. Its result is told without
conditions: it has those rows, in the order of the collection, of which the predicates of the plan
hold. Data that can be read by a request can also be looked into by a search, since stored data is
read under rules that cover those for requests.
-/

namespace DoubleEntry

open Time (Timestamp)

/-- Tables whose rows can all be told apart and read: ids differ within a collection, every account
has a balance, and all data and timestamps are readable. -/
structure Tables.Readable (t : Tables) : Prop where
  nodup_accounts : (t.accounts.map AccountRow.id).Nodup
  nodup_headers : (t.headers.map Header.id).Nodup
  balances : ∀ row ∈ t.accounts, ∃ balance, t.balance? row.id = some balance
  account_data : ∀ row ∈ t.accounts, ∃ data, Data.ofStored (some row.data) = .ok data
  header_data : ∀ header ∈ t.headers, ∃ data, Data.ofStored header.data = .ok data
  timestamps : ∀ header ∈ t.headers, ∃ timestamp, Timestamp.parse? header.timestamp = some timestamp

namespace Search

/-! ## Stored data -/

/-- A word of a request is also one of stored data. -/
theorem storedWord?_isSome {letters : List Char} (h : (Json.ofWord? letters).isSome = true) :
    (storedWord? letters).isSome = true := by
  unfold Json.ofWord? at h
  unfold storedWord?
  split_ifs at h ⊢
  case neg =>
    obtain ⟨v, hv⟩ := Option.isSome_iff_exists.mp h
    obtain ⟨numeral, hnumeral, -⟩ := Option.bind_eq_some_iff.mp hv
    rw [hnumeral]
    rfl
  all_goals rfl

/-- Stored data is read wherever a request is. -/
theorem storedRules_covers_strict : storedRules.Covers Json.Reader.strict where
  deepest := by decide
  ofWord? := fun _ => storedWord?_isSome

/-- Conditions can look into data that can be read. -/
theorem storedValue?_isSome_of_ofStored {text : Option String} {data : Data}
    (h : Data.ofStored text = .ok data) : (storedValue? text).isSome = true := by
  cases text with
  | none => rfl
  | some words =>
    have hparse : (Json.parse? words).isSome = true := by
      unfold Data.ofStored at h
      dsimp only at h
      cases hparse : Json.parse? words with
      | none => simp [hparse] at h
      | some v => rfl
    have hread := storedRules_covers_strict.read?_isSome hparse
    rw [storedValue?, Option.isSome_or, hread, Bool.true_or]

/-! ## Rows -/

/-- The id of an account is a text, and it has no timestamp. -/
theorem hasTexts_accountColumn (row : AccountRow) (balance : Option Amount) (data : Json) :
    Row.HasTexts ⟨accountColumn row balance, data⟩ := by
  intro column hcolumn
  cases column with
  | id => exact .inr ⟨row.id, rfl⟩
  | balance => exact absurd rfl hcolumn
  | timestamp => exact .inl rfl

/-- The id and the timestamp of a transaction are texts. -/
theorem hasTexts_headerColumn (header : Header) (data : Json) :
    Row.HasTexts ⟨headerColumn header, data⟩ := by
  intro column hcolumn
  cases column with
  | id => exact .inr ⟨header.id, rfl⟩
  | balance => exact absurd rfl hcolumn
  | timestamp => exact .inr ⟨header.timestamp, rfl⟩

/-- An account that is read has the id of its row. -/
theorem id_of_readAccount {found : AccountRow × Amount} {account : Account}
    (h : readAccount found = .ok account) : account.id = found.1.id := by
  obtain ⟨data, -, h⟩ := bind_eq_ok_iff.mp h
  rw [← Except.ok.inj h]

/-! ## Plans -/

namespace Plan

/-- Whether a plan holds of a row: all items that have to hold do, and if there are others, some of
those. -/
def holds (p : Plan) (row : Row) : Bool :=
  (p.must.all fun item => item.all (Predicate.holds row)) &&
    (p.should.isEmpty || p.should.any fun item => item.all (Predicate.holds row))

/-- A plan that matches only texts with patterns. -/
def MatchesTexts (p : Plan) : Prop :=
  ∀ item ∈ p.must ++ p.should, ∀ predicate ∈ item, predicate.MatchesTexts

end Plan

variable {row : Row} {p : Plan}

/-- The conditions of items are true one by one when all predicates of the item hold. -/
theorem map_isYes_itemConditions (hrow : row.HasTexts) {items : List Item}
    (hitems : ∀ item ∈ items, ∀ predicate ∈ item, predicate.MatchesTexts) (n : Nat) :
    (Item.conditions n items).1.map (fun c => (c.truth row []).isYes) =
      items.map fun item => item.all (Predicate.holds row) := by
  induction items generalizing n with
  | nil => rfl
  | cons item rest ih =>
    have hitem := all_eq_of_map_eq
      (Predicate.map_isYes_conditions hrow item (hitems item List.mem_cons_self) n [])
    rw [Item.conditions, List.map_cons, List.map_cons, Condition.truth, Condition.isYes_truthOfAll,
      hitem, ih fun later hlater => hitems later (List.mem_cons_of_mem _ hlater)]

namespace Plan

/-- A row meets the conditions of a plan when the plan holds of it. -/
theorem allMet_conditions (hrow : row.HasTexts) (hp : p.MatchesTexts) :
    Condition.allMet row p.conditions = p.holds row := by
  have hmust := fun n => all_eq_of_map_eq (map_isYes_itemConditions hrow
    (fun item hitem => hp item (List.mem_append_left _ hitem)) n)
  have hshould := fun n => any_eq_of_map_eq (map_isYes_itemConditions hrow
    (fun item hitem => hp item (List.mem_append_right _ hitem)) n)
  rw [Condition.allMet, Condition.isYes_truthOfAll, conditions, holds]
  dsimp only
  split_ifs with hnone
  · rw [hmust, hnone, Bool.true_or, Bool.and_true]
  · rw [List.all_append, hmust, List.all_cons, List.all_nil, Condition.truth,
      Condition.isYes_truthOfAny, hshould, Bool.and_true, Bool.eq_false_iff.mpr hnone,
      Bool.false_or]

/-- An account that meets all conditions is not left out before its balance is computed. -/
theorem admitsId_of_allMet {row : AccountRow} {balance : Option Amount} {data : Json}
    (h : Condition.allMet ⟨accountColumn row balance, data⟩ p.conditions = true) :
    p.admitsId row = true := by
  rw [Condition.allMet, Condition.isYes_truthOfAll] at h
  rw [admitsId, List.all_eq_true]
  intro c hc
  obtain ⟨hmem, hreads⟩ := List.mem_filter.mp hc
  have htrue := Condition.isYes_of_mem_conjunctsOf _ h c hmem
  cases hverdict : c.truthOfColumns? (accountColumn row none) with
  | none => rfl
  | some verdict =>
    have hagree : ∀ k ∈ [Column.id], accountColumn row none k =
        (⟨accountColumn row balance, data⟩ : Row).column k := by
      intro k hk
      obtain rfl := List.mem_singleton.mp hk
      rfl
    exact (Condition.isYes_of_truthOfColumns? hagree c hreads hverdict).symm.trans htrue

/-- Whether a row with readable data is in the result depends on what the plan says of it. -/
theorem admits_of_isSome (space : Namespace) (hp : p.MatchesTexts) {column : Column → Value}
    {data : Option String} (hrow : ∀ v, Row.HasTexts ⟨column, v⟩)
    (hdata : (storedValue? data).isSome = true) :
    p.admits space column data = .ok (p.holds ⟨column, (storedValue? data).getD .null⟩) := by
  obtain ⟨v, hv⟩ := Option.isSome_iff_exists.mp hdata
  rw [admits, hv, ← allMet_conditions (hrow _) hp]
  rfl

/-! ## Results -/

/-- The whole result of a plan without bounds is asked for. -/
theorem page_of_none (hlimit : p.limit = none) (hoffset : p.offset = none) {α : Type}
    (rows : List α) : p.page rows = rows :=
  page_eq_self (by rw [hoffset]; rfl) (by simp [hlimit])

variable {t : Tables}

/-- The account rows of the result are those of which the plan holds. -/
theorem accountRows_of_readable (h : t.Readable) (hp : p.MatchesTexts) (hlimit : p.limit = none)
    (hoffset : p.offset = none) :
    p.accountRows t =
      .ok (((accountsInOrder t).filter fun row => p.holds (accountRow t row)).map fun row =>
        (row, (t.balance? row.id).getD 0)) := by
  have hmem : ∀ row ∈ accountsInOrder t, row ∈ t.accounts := fun row =>
    (List.mergeSort_perm _ _).mem_iff.mp
  have hbalance : ∀ row ∈ (accountsInOrder t).filter p.admitsId,
      withBalance t row = .ok (row, (t.balance? row.id).getD 0) := by
    intro row hrow
    obtain ⟨balance, hbalance⟩ := h.balances row (hmem row (List.mem_filter.mp hrow).1)
    rw [withBalance, hbalance]
    rfl
  have hverdict : ∀ row ∈ accountsInOrder t,
      p.admits .accounts (accountColumn row (some ((t.balance? row.id).getD 0))) (some row.data) =
        .ok (p.holds (accountRow t row)) := by
    intro row hrow
    obtain ⟨data, hdata⟩ := h.account_data row (hmem row hrow)
    obtain ⟨balance, hbalance⟩ := h.balances row (hmem row hrow)
    rw [admits_of_isSome .accounts hp (hasTexts_accountColumn row _)
      (storedValue?_isSome_of_ofStored hdata), accountRow, hbalance]
    rfl
  -- The filter by id comes before the others and takes nothing from them.
  have hearly : ∀ row ∈ accountsInOrder t,
      (p.holds (accountRow t row) && p.admitsId row) = p.holds (accountRow t row) := by
    intro row _
    have hmet : Condition.allMet (accountRow t row) p.conditions = p.holds (accountRow t row) :=
      allMet_conditions (hasTexts_accountColumn row _ _) hp
    cases hholds : p.holds (accountRow t row) with
    | false => rfl
    | true =>
      rw [admitsId_of_allMet (hmet.trans hholds)]
      rfl
  have hadmits : ∀ found ∈ ((accountsInOrder t).filter p.admitsId).map fun row =>
      (row, (t.balance? row.id).getD 0),
        p.admits .accounts (accountColumn found.1 (some found.2)) (some found.1.data) =
          .ok (p.holds (accountRow t found.1)) := by
    intro found hfound
    obtain ⟨row, hrow, rfl⟩ := List.mem_map.mp hfound
    exact hverdict row (List.mem_filter.mp hrow).1
  have hasks : p.isEmpty = false := by simp [isEmpty, hlimit]
  rw [accountRows, if_neg (by simp [hasks]), mapM_eq_ok_map hbalance, Store.bind_of_eq_ok rfl,
    Store.bind_of_eq_ok (filterM_eq_ok hadmits), page_of_none hlimit hoffset, List.filter_map,
    List.filter_filter]
  exact congrArg (fun rows => Except.ok (List.map _ rows)) (List.filter_congr hearly)

/-- The headers of the result are those of which the plan holds. -/
theorem headers_of_readable (h : t.Readable) (hp : p.MatchesTexts) (hlimit : p.limit = none)
    (hoffset : p.offset = none) :
    p.headers t = .ok ((headersInOrder t).filter fun header => p.holds (headerRow header)) := by
  have hverdict : ∀ header ∈ headersInOrder t,
      p.admits .transactions (headerColumn header) header.data =
        .ok (p.holds (headerRow header)) := by
    intro header hheader
    obtain ⟨data, hdata⟩ := h.header_data header ((List.mergeSort_perm _ _).mem_iff.mp hheader)
    exact admits_of_isSome .transactions hp (hasTexts_headerColumn header)
      (storedValue?_isSome_of_ofStored hdata)
  have hasks : p.isEmpty = false := by simp [isEmpty, hlimit]
  rw [headers, if_neg (by simp [hasks]), filterM_eq_ok hverdict]
  exact congrArg Except.ok (page_of_none hlimit hoffset _)

/-- A plan without bounds runs on readable tables and gives the rows of which it holds. -/
theorem run_of_readable {s : Store} (h : s.tables.Readable) (hopen : s.isOpen = true)
    (space : Namespace) (hp : p.MatchesTexts) (hlimit : p.limit = none) (hoffset : p.offset = none) :
    ∃ results, p.run space s = .ok results ∧
      results.ids = ((space.rows s.tables).filter fun row => p.holds row.2).map Prod.fst := by
  rw [run_of_open hopen]
  cases space with
  | accounts =>
    have hread : ∀ found ∈ ((accountsInOrder s.tables).filter fun row =>
        p.holds (accountRow s.tables row)).map fun row => (row, (s.tables.balance? row.id).getD 0),
          ∃ account, readAccount found = .ok account := by
      intro found hfound
      obtain ⟨row, hrow, rfl⟩ := List.mem_map.mp hfound
      have hmem := (List.mergeSort_perm _ _).mem_iff.mp (List.mem_filter.mp hrow).1
      obtain ⟨data, hdata⟩ := h.account_data row hmem
      exact ⟨_, Store.bind_of_eq_ok hdata⟩
    obtain ⟨accounts, haccounts⟩ := exists_forall₂_iff.mpr hread
    refine ⟨.accounts accounts, ?_, ?_⟩
    · dsimp only
      rw [accountRows_of_readable h hp hlimit hoffset, Except.mapError, Store.bind_of_eq_ok rfl,
        mapM_eq_ok_iff.mpr haccounts]
      rfl
    · have hids := map_eq_map_of_forall₂ haccounts fun _ _ hread => (id_of_readAccount hread).symm
      rw [Results.ids, ← hids, Namespace.rows, List.filter_map, List.map_map, List.map_map]
      rfl
  | transactions =>
    have hread : ∀ header ∈ (headersInOrder s.tables).filter fun header =>
        p.holds (headerRow header),
          ∃ row, readTransaction (transactionRow s.tables header) = .ok row := by
      intro header hheader
      have hmem := (List.mergeSort_perm _ _).mem_iff.mp (List.mem_filter.mp hheader).1
      obtain ⟨data, hdata⟩ := h.header_data header hmem
      obtain ⟨timestamp, htimestamp⟩ := h.timestamps header hmem
      rw [readTransaction_transactionRow, htimestamp, hdata]
      exact ⟨_, rfl⟩
    obtain ⟨rows, hrows⟩ := exists_forall₂_iff.mpr hread
    refine ⟨.transactions rows, ?_, ?_⟩
    · dsimp only
      rw [headers_of_readable h hp hlimit hoffset, Except.mapError, Store.bind_of_eq_ok rfl,
        mapM_eq_ok_iff.mpr hrows]
      rfl
    · have hids := map_eq_map_of_forall₂ hrows fun _ _ hread =>
        (shows_of_readTransaction hread).id.symm
      rw [Results.ids, ← hids, Namespace.rows, List.filter_map, List.map_map]
      rfl

end Plan

end Search

end DoubleEntry
