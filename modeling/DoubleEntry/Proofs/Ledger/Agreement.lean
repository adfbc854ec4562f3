import DoubleEntry.Proofs.Ledger.Balances
import DoubleEntry.Proofs.Search.LongPatterns
import DoubleEntry.Proofs.Search.Lookup

/-!
# Ways to read a balance

The balance of an account can be read in four ways: with the account, by a search for its id, at a
time that no transaction is after, and by adding up what all transactions that a search shows book
on it. All four give the running total of the amounts in the table of lines, so they give one number.
-/

namespace DoubleEntry

open Amount (TotalsFit)
open Search (Constraint PostedTransaction Query)

/-- The amounts that lines book on an account. -/
def Line.deltasOn (account : String) (lines : List Line) : List Amount :=
  (lines.filter fun line => line.account = account).map Line.delta

/-- The amounts that the transactions of a result book on an account. -/
def Search.PostedTransaction.deltasOn (account : String) (rows : List PostedTransaction) :
    List Amount :=
  rows.flatMap fun row => Line.deltasOn account row.lines

namespace Tables.Intact

variable {t : Tables}

/-- When every transaction has a timestamp text up to a limit, all amounts on an account count. -/
theorem deltasUpTo_eq_deltasOf (h : t.Intact) {limit : String}
    (hlimit : ∀ header ∈ t.headers, header.timestamp ≤ limit) (account : String) :
    t.deltasUpTo account limit = t.deltasOf account := by
  have hupTo : ∀ row ∈ t.lines, t.isUpTo limit row = true := by
    intro row hrow
    obtain ⟨header, hheader, hid⟩ := List.mem_map.mp (h.header_of_line row hrow)
    have hfound : t.header? row.transaction = some header :=
      hid ▸ find?_eq_some_of_nodup h.nodup_headers hheader
    simp only [isUpTo, hfound, hlimit header hheader, decide_true]
  have hfilter : (t.lines.filter fun r => r.line.account = account && t.isUpTo limit r) =
      t.lines.filter fun r => r.line.account = account :=
    List.filter_congr fun row hrow => by rw [hupTo row hrow, Bool.and_true]
  rw [deltasUpTo, deltasOf, hfilter]

/-- What the lines of all transactions, one after another, book on an account adds up to what all
lines book on it. -/
theorem sum_linesOf (h : t.Intact) (account : String) :
    (t.headers.map fun header => Amount.sum (Line.deltasOn account (t.linesOf header.id))).sum =
      Amount.sum (t.deltasOf account) := by
  let rows := t.lines.filter fun row => row.line.account = account
  let number : LineRow → Int := fun row => row.line.delta.toInt
  have hlines : ∀ id, Amount.sum (Line.deltasOn account (t.linesOf id)) =
      ((rows.filter fun row => row.transaction = id).map number).sum := by
    intro id
    rw [Amount.sum_eq, Line.deltasOn, linesOf, List.filter_map, List.map_map, List.map_map,
      List.filter_filter, List.filter_filter]
    simp only [Bool.and_comm, Function.comp_def, number]
  -- Every line has a header, so gathering the lines header by header leaves none out.
  have hkeys : ∀ row ∈ rows, row.transaction ∈ t.headers.map Header.id := fun row hrow =>
    h.header_of_line row (List.mem_filter.mp hrow).1
  have hsum := sum_map_sum_filter number h.nodup_headers hkeys
  rw [List.map_map] at hsum
  simp only [hlines]
  rw [Amount.sum_eq, deltasOf, List.map_map]
  exact hsum

/-- The transactions of a result that shows every header book on an account what all lines book
on it. -/
theorem sum_deltasOn (h : t.Intact) {rows : List PostedTransaction}
    (hrows : List.Forall₂ (fun header row => row.Shows t header) (Search.headersInOrder t) rows)
    (account : String) :
    Amount.sum (PostedTransaction.deltasOn account rows) = Amount.sum (t.deltasOf account) := by
  let booked : List Line → Int := fun lines => Amount.sum (Line.deltasOn account lines)
  have hperm : (Search.headersInOrder t).Perm t.headers := List.mergeSort_perm _ _
  have hshown : ((Search.headersInOrder t).map fun header => booked (t.linesOf header.id)) =
      rows.map fun row => booked row.lines :=
    map_eq_map_of_forall₂ hrows fun header row hrow => by rw [hrow.lines]
  have hrows : Amount.sum (PostedTransaction.deltasOn account rows) =
      (rows.map fun row => booked row.lines).sum := by
    rw [PostedTransaction.deltasOn, Amount.sum_eq, List.map_flatMap, List.flatMap_def,
      List.sum_flatten, List.map_map]
    rfl
  rw [hrows, ← hshown, (hperm.map _).sum_eq]
  exact h.sum_linesOf account

/-- The timestamps of intact tables can be read, so a header is shown when its data can be read. -/
theorem readTransaction_eq_ok_iff (h : t.Intact) {header : Header} (hheader : header ∈ t.headers) :
    (∃ row, Search.readTransaction (Search.transactionRow t header) = .ok row) ↔
      ∃ data, Data.ofStored header.data = .ok data := by
  obtain ⟨timestamp, htimestamp, -⟩ := h.timestamps header hheader
  rw [Search.readTransaction_transactionRow, htimestamp]
  simp only [map_eq_ok_iff]
  exact ⟨fun ⟨_, data, hdata, _⟩ => ⟨data, hdata⟩, fun ⟨data, hdata⟩ => ⟨_, data, hdata, rfl⟩⟩

end Tables.Intact

namespace Ledger

variable {l : Ledger}

/-- A search for the id of an account gives what reading the account gives, be it a fault. -/
theorem searchIn_accounts_withId (hkeys : l.store.tables.HasKeys) (hopen : l.store.isOpen = true)
    {row : AccountRow} (hrow : row ∈ l.store.tables.accounts) {text : String}
    (hquery : Query.ofText text = .ok (Constraint.withId row.id).query) :
    (l.searchIn "accounts" text).1 = (l.account row.id).map fun found => .accounts [found] := by
  have hrun := Search.run_accounts_withId hquery hopen hkeys.accounts hrow
  have haccount := account_of_row hopen (find?_eq_some_of_nodup hkeys.accounts hrow)
  change (l.search .accounts text).1 = _
  rw [search, Search.answer_eq_run hquery (Query.patternsFit_query rfl), hrun, haccount]
  cases l.store.tables.balance? row.id with
  | none => rfl
  | some balance => cases Data.ofStored (some row.data) <;> rfl

/-- A search for the id of a transaction gives what is read from its header, be it a fault. -/
theorem searchIn_transactions_withId (hkeys : l.store.tables.HasKeys)
    (hopen : l.store.isOpen = true) {header : Header} (hheader : header ∈ l.store.tables.headers)
    {text : String} (hquery : Query.ofText text = .ok (Constraint.withId header.id).query) :
    (l.searchIn "transactions" text).1 =
      (Search.readTransaction (Search.transactionRow l.store.tables header)).map fun found =>
        .transactions [found] := by
  have hrun := Search.run_transactions_withId hquery hopen hkeys.headers hheader
  change (l.search .transactions text).1 = _
  rw [search, Search.answer_eq_run hquery (Query.patternsFit_query rfl), hrun]
  cases Search.readTransaction (Search.transactionRow l.store.tables header) <;> rfl

/-- A search for all transactions gives what is read from their headers, in order. -/
theorem searchIn_of_asksForAll (hopen : l.store.isOpen = true) {text : String} {q : Query}
    (hquery : Query.ofText text = .ok q) (hall : q.AsksForAll l.store.tables.headers.length)
    {rows : List PostedTransaction} :
    (l.searchIn "transactions" text).1 = .ok (.transactions rows) ↔
      List.Forall₂ (fun header row =>
        Search.readTransaction (Search.transactionRow l.store.tables header) = .ok row)
        (Search.headersInOrder l.store.tables) rows := by
  rw [← mapM_eq_ok_iff]
  change (l.search .transactions text).1 = _ ↔ _
  rw [search, Search.answer_eq_run hquery (Query.patternsFit_of_isEverything hall.everything),
    Search.run_of_asksForAll hquery hall hopen]
  cases (Search.headersInOrder l.store.tables).mapM fun header =>
    Search.readTransaction (Search.transactionRow l.store.tables header) <;>
      simp [Except.map]

/-- In an open store, when all running totals of what is booked on an account are amounts, there is
one balance which is given with the account, by a search for its id, at every time that no
transaction is after, and by all transactions together. The search for the id shows what is given
with the account, and the search for all transactions succeeds when their data can be read. -/
theorem balances_agree (hreachable : l.Reachable) (hopen : l.store.isOpen = true)
    {row : AccountRow} (hrow : row ∈ l.store.tables.accounts)
    (hfits : TotalsFit (l.store.tables.deltasOf row.id)) :
    ∃ balance,
      l.account row.id =
        (Data.ofStored (some row.data)).map (fun data => ⟨row.id, balance, data⟩) ∧
      (Query.ofText (Constraint.documentWithId row.id).render =
          .ok (Constraint.withId row.id).query ∧
        ∀ text, Query.ofText text = .ok (Constraint.withId row.id).query →
          (l.searchIn "accounts" text).1 =
            (l.account row.id).map fun found => .accounts [found]) ∧
      (∀ on, (∀ header ∈ l.store.tables.headers, header.timestamp ≤ on.render) →
        l.balanceAt row.id on = .ok balance) ∧
      ∀ text q, Query.ofText text = .ok q → q.AsksForAll l.store.tables.headers.length →
        ((∃ rows, (l.searchIn "transactions" text).1 = .ok (.transactions rows)) ↔
          ∀ header ∈ l.store.tables.headers, ∃ data, Data.ofStored header.data = .ok data) ∧
        ∀ rows, (l.searchIn "transactions" text).1 = .ok (.transactions rows) →
          Amount.sum (PostedTransaction.deltasOn row.id rows) = balance.toInt := by
  have hintact := hreachable.intact
  have hfound := find?_eq_some_of_nodup hintact.nodup_accounts hrow
  cases htotal : Amount.total? (l.store.tables.deltasOf row.id) with
  | none => exact absurd hfits (Amount.total?_eq_none_iff.mp htotal)
  | some balance =>
    refine ⟨balance, ?account, ⟨Constraint.ofText_documentWithId row.id, ?lookup⟩, ?atEnd, ?lines⟩
    case account =>
      have hbalance : l.store.tables.balance? row.id = some balance := htotal
      rw [account_of_row hopen hfound, hbalance]
    case lookup => exact fun text hquery => searchIn_accounts_withId hintact.hasKeys hopen hrow hquery
    case atEnd =>
      intro on hon
      rw [balanceAt_eq_ok_iff, hintact.deltasUpTo_eq_deltasOf hon]
      exact ⟨hopen, htotal⟩
    case lines =>
      intro text q hquery hall
      simp only [searchIn_of_asksForAll hopen hquery hall]
      constructor
      · have hmem : ∀ header, header ∈ Search.headersInOrder l.store.tables ↔
            header ∈ l.store.tables.headers := fun _ => (List.mergeSort_perm _ _).mem_iff
        rw [exists_forall₂_iff]
        simp only [hmem]
        exact forall₂_congr fun header hheader => hintact.readTransaction_eq_ok_iff hheader
      · intro rows hrows
        have hshows := hrows.imp fun _ _ => Search.shows_of_readTransaction
        rw [hintact.sum_deltasOn hshows, (Amount.total?_eq_some_iff.mp htotal).2]

/-- An account to which payments were made has one balance. -/
theorem balances_agree_payments :
    (uncounted.run payments).2.Reachable ∧ (uncounted.run payments).2.store.isOpen = true ∧
      ⟨"a", AccountRow.emptyData⟩ ∈ (uncounted.run payments).2.store.tables.accounts ∧
      TotalsFit ((uncounted.run payments).2.store.tables.deltasOf "a") ∧
      (uncounted.run payments).2.balanceAt "a" (.newYear 2018) = .ok 12 ∧
      ∃ rows, ((uncounted.run payments).2.searchIn "transactions" "").1 = .ok (.transactions rows) ∧
        Amount.sum (PostedTransaction.deltasOn "a" rows) = 12 := by
  have hreachable : (uncounted.run payments).2.Reachable := ⟨none, payments, rfl⟩
  have hopen : (uncounted.run payments).2.store.isOpen = true := by decide +kernel
  have hrow : ⟨"a", AccountRow.emptyData⟩ ∈ (uncounted.run payments).2.store.tables.accounts := by
    decide +kernel
  have hfits : TotalsFit ((uncounted.run payments).2.store.tables.deltasOf "a") := by
    decide +kernel
  have hend : (uncounted.run payments).2.balanceAt "a" (.newYear 2018) = .ok 12 := by
    decide +kernel
  obtain ⟨balance, -, -, hlate, hlines⟩ := balances_agree hreachable hopen hrow hfits
  obtain rfl : balance = 12 := by
    have hon : ∀ header ∈ (uncounted.run payments).2.store.tables.headers,
        header.timestamp ≤ (Time.Timestamp.newYear 2018).render := by decide +kernel
    exact Except.ok.inj ((hlate _ hon).symm.trans hend)
  have hall : Query.everything.AsksForAll (uncounted.run payments).2.store.tables.headers.length :=
    ⟨rfl, by decide, by simp [Query.everything]⟩
  obtain ⟨hreadable, hsum⟩ := hlines "" .everything rfl hall
  have hdata : ∀ header ∈ (uncounted.run payments).2.store.tables.headers,
      header.data = some AccountRow.emptyData := by decide +kernel
  obtain ⟨rows, hrows⟩ := hreadable.mpr fun header hheader => ⟨[], by rw [hdata header hheader]; rfl⟩
  exact ⟨hreachable, hopen, hrow, hfits, hend, rows, hrows, hsum rows hrows⟩

end Ledger

end DoubleEntry
