import DoubleEntry.Proofs.Amount.Totals
import DoubleEntry.Proofs.Answers
import DoubleEntry.Proofs.Json.Integers
import DoubleEntry.Proofs.Keyed
import DoubleEntry.Proofs.Store.Commit
import DoubleEntry.Search.Listing

/-!
# The rows that a search returns

A search returns some of the rows of its collection, in order. A transaction comes with exactly its
lines: both arrays of its row are read back as they were written, they are equally long, and the
accounts and amounts at one place belong to one line. A search for all accounts returns each of them
with its balance.
-/

namespace DoubleEntry.Search

open Time (Timestamp)

/-! ## Lines in two arrays -/

/-- A gathered array is read back item by item. -/
theorem gathered_render {α β : Type} {item? : Json → Option α} {write : β → Json} {read : β → α}
    {values : List β}
    (hwrite : ∀ b ∈ values, Json.Reader.readBack? Json.Reader.strict 1 (write b) = some (write b))
    (hread : ∀ b ∈ values, item? (write b) = some (read b)) :
    gathered item? (Json.array (values.map write)).render = .ok (values.map read) := by
  have hitems : (values.map write).mapM item? = some (values.map read) := by
    induction values with
    | nil => rfl
    | cons b rest ih =>
      have hrest := ih (fun c hc => hwrite c (List.mem_cons_of_mem _ hc))
        fun c hc => hread c (List.mem_cons_of_mem _ hc)
      rw [List.map_cons, List.mapM_cons, hread b List.mem_cons_self, hrest]
      rfl
  rw [gathered, Json.parse?_render_array hwrite]
  simp only [hitems]

/-- The accounts of lines are read back. -/
theorem gathered_accounts (lines : List Line) :
    gathered Json.text? (Json.array (lines.map fun line => .text line.account)).render =
      .ok (lines.map Line.account) :=
  gathered_render (fun _ _ => rfl) fun _ _ => rfl

/-- The amounts of lines are read back. -/
theorem gathered_deltas (lines : List Line) :
    gathered Json.amount? (Json.array (lines.map fun line => .ofAmount line.delta)).render =
      .ok (lines.map Line.delta) :=
  gathered_render (fun line _ => Json.ofWord?_integerText (Json.fitsWord_toInt line.delta))
    fun line _ => Amount.ofInt?_toInt line.delta

/-- The accounts and amounts of lines are paired to those lines. -/
theorem zipWith_accounts_deltas (lines : List Line) :
    List.zipWith Line.mk (lines.map Line.account) (lines.map Line.delta) = lines := by
  rw [List.zipWith_map, List.zipWith_self]
  exact List.map_id' lines

/-- A row is read as a transaction with the lines of its header whenever the timestamp and the data
of the header can be read. -/
theorem readTransaction_transactionRow (t : Tables) (header : Header) :
    readTransaction (transactionRow t header) =
      match Timestamp.parse? header.timestamp with
      | none => .error (.row (.unreadableTimestamp header.id header.timestamp))
      | some timestamp => (Data.ofStored header.data).map fun data =>
          ⟨header.id, timestamp, data, t.linesOf header.id⟩ := by
  rw [readTransaction, transactionRow]
  refine (Store.bind_of_eq_ok (gathered_accounts _)).trans ?_
  refine (Store.bind_of_eq_ok (gathered_deltas _)).trans ?_
  rw [if_pos (by simp only [List.length_map]), zipWith_accounts_deltas]
  cases Timestamp.parse? header.timestamp with
  | none => rfl
  | some timestamp => cases Data.ofStored header.data <;> rfl

/-- What a search shows of a header and its lines. -/
structure PostedTransaction.Shows (row : PostedTransaction) (t : Tables) (header : Header) :
    Prop where
  id : row.id = header.id
  timestamp : Timestamp.parse? header.timestamp = some row.timestamp
  data : Data.ofStored header.data = .ok row.data
  lines : row.lines = t.linesOf header.id

/-- A row is read as what a search shows of its header. -/
theorem shows_of_readTransaction {t : Tables} {header : Header} {row : PostedTransaction}
    (h : readTransaction (transactionRow t header) = .ok row) : row.Shows t header := by
  rw [readTransaction_transactionRow] at h
  cases htimestamp : Timestamp.parse? header.timestamp with
  | none =>
    rw [htimestamp] at h
    exact absurd h (by simp)
  | some timestamp =>
    rw [htimestamp] at h
    obtain ⟨data, hdata, rfl⟩ := map_eq_ok_iff.mp h
    exact ⟨rfl, htimestamp, hdata, rfl⟩

/-! ## Results -/

/-- A part of rows is some of them, in their order. -/
theorem Plan.sublist_page {α : Type} (p : Plan) (rows : List α) : (p.page rows).Sublist rows := by
  unfold Plan.page
  cases p.limit with
  | none => exact List.drop_sublist _ _
  | some n => exact (List.take_sublist _ _).trans (List.drop_sublist _ _)

/-- The headers of a result are some of those in the store, in order. -/
theorem Plan.sublist_headers {p : Plan} {t : Tables} {headers : List Header}
    (h : p.headers t = .ok headers) : headers.Sublist (headersInOrder t) := by
  unfold Plan.headers at h
  split_ifs at h
  · obtain rfl : [] = headers := Except.ok.inj h
    exact List.nil_sublist _
  · obtain ⟨admitted, hadmitted, hpage⟩ := bind_eq_ok_iff.mp h
    obtain rfl : p.page admitted = headers := Except.ok.inj hpage
    obtain ⟨verdict, -, rfl⟩ := exists_verdict_of_filterM hadmitted
    exact (p.sublist_page _).trans List.filter_sublist

/-- An open store has its tables read. -/
theorem Plan.run_of_open {space : Namespace} {p : Plan} {s : Store} (hopen : s.isOpen = true) :
    p.run space s =
      match space with
      | .accounts => do
        let rows ← (p.accountRows s.tables).mapError .store
        return .accounts (← rows.mapM readAccount)
      | .transactions => do
        let rows ← (p.headers s.tables).mapError .store
        return .transactions (← rows.mapM fun header =>
          readTransaction (transactionRow s.tables header)) := by
  rw [Plan.run, Store.contents, if_pos hopen]
  rfl

/-- A plan that has a result has it of the tables of an open store. -/
theorem Plan.isOpen_of_run {space : Namespace} {p : Plan} {s : Store} {results : Results}
    (h : p.run space s = .ok results) : s.isOpen = true := by
  obtain ⟨t, ht, -⟩ := bind_eq_ok_iff.mp h
  have hcontents := mapError_eq_ok_iff.mp ht
  unfold Store.contents at hcontents
  split_ifs at hcontents with hopen
  exact hopen

/-- The result of a plan over accounts is what is read from its account rows. -/
theorem Plan.run_accounts_eq_ok_iff {p : Plan} {s : Store} {results : Results} :
    p.run .accounts s = .ok results ↔ s.isOpen = true ∧ ∃ found rows,
      p.accountRows s.tables = .ok found ∧ found.mapM readAccount = .ok rows ∧
        .accounts rows = results := by
  constructor
  · intro h
    have hopen := Plan.isOpen_of_run h
    rw [Plan.run_of_open hopen] at h
    obtain ⟨found, hfound, h⟩ := bind_eq_ok_iff.mp h
    obtain ⟨rows, hrows, h⟩ := bind_eq_ok_iff.mp h
    exact ⟨hopen, found, rows, mapError_eq_ok_iff.mp hfound, hrows, Except.ok.inj h⟩
  · rintro ⟨hopen, found, rows, hfound, hrows, rfl⟩
    rw [Plan.run_of_open hopen]
    exact bind_eq_ok_iff.mpr ⟨found, mapError_eq_ok_iff.mpr hfound,
      bind_eq_ok_iff.mpr ⟨rows, hrows, rfl⟩⟩

/-- The result of a plan over transactions is what is read from the rows of its headers. -/
theorem Plan.run_transactions_eq_ok_iff {p : Plan} {s : Store} {results : Results} :
    p.run .transactions s = .ok results ↔ s.isOpen = true ∧ ∃ headers rows,
      p.headers s.tables = .ok headers ∧
        (headers.mapM fun header => readTransaction (transactionRow s.tables header)) = .ok rows ∧
          .transactions rows = results := by
  constructor
  · intro h
    have hopen := Plan.isOpen_of_run h
    rw [Plan.run_of_open hopen] at h
    obtain ⟨headers, hheaders, h⟩ := bind_eq_ok_iff.mp h
    obtain ⟨rows, hrows, h⟩ := bind_eq_ok_iff.mp h
    exact ⟨hopen, headers, rows, mapError_eq_ok_iff.mp hheaders, hrows, Except.ok.inj h⟩
  · rintro ⟨hopen, headers, rows, hheaders, hrows, rfl⟩
    rw [Plan.run_of_open hopen]
    exact bind_eq_ok_iff.mpr ⟨headers, mapError_eq_ok_iff.mpr hheaders,
      bind_eq_ok_iff.mpr ⟨rows, hrows, rfl⟩⟩

/-- A search that succeeds has read its query document, made a plan of it and run the plan on the
tables of an open store. -/
theorem exists_plan_of_run {space : Namespace} {text : String} {s : Store} {results : Results}
    (h : run space text s = .ok results) :
    ∃ q p, Query.ofText text = .ok q ∧ q.plan space = .ok p ∧ s.isOpen = true ∧
      p.run space s = .ok results := by
  obtain ⟨q, hq, h⟩ := bind_eq_ok_iff.mp h
  obtain ⟨p, hp, h⟩ := bind_eq_ok_iff.mp h
  exact ⟨q, p, mapError_eq_ok_iff.mp hq, mapError_eq_ok_iff.mp hp, Plan.isOpen_of_run h, h⟩

/-- A plan over transactions shows some of the headers in the store, in order. -/
theorem Plan.forall₂_shows_of_run {p : Plan} {s : Store} {results : Results}
    (h : p.run .transactions s = .ok results) :
    ∃ headers rows, headers.Sublist (headersInOrder s.tables) ∧
      List.Forall₂ (fun header row => row.Shows s.tables header) headers rows ∧
        .transactions rows = results := by
  obtain ⟨-, headers, rows, hheaders, hrows, hresults⟩ := Plan.run_transactions_eq_ok_iff.mp h
  exact ⟨headers, rows, Plan.sublist_headers hheaders,
    (mapM_eq_ok_iff.mp hrows).imp fun _ _ => shows_of_readTransaction, hresults⟩

/-- A search over transactions shows some of the headers in the store, in order. -/
theorem forall₂_shows_of_run {space : Namespace} {text : String} {s : Store}
    {rows : List PostedTransaction} (h : run space text s = .ok (.transactions rows)) :
    ∃ headers, headers.Sublist (headersInOrder s.tables) ∧
      List.Forall₂ (fun header row => row.Shows s.tables header) headers rows := by
  obtain ⟨q, p, -, -, -, h⟩ := exists_plan_of_run h
  cases space with
  | accounts =>
    obtain ⟨-, _, _, -, -, hresults⟩ := Plan.run_accounts_eq_ok_iff.mp h
    exact absurd hresults (by simp)
  | transactions =>
    obtain ⟨headers, found, hsublist, hshows, hresults⟩ := Plan.forall₂_shows_of_run h
    obtain rfl := Results.transactions.inj hresults
    exact ⟨headers, hsublist, hshows⟩

/-- The transactions that a search returns are what it shows of some of the headers in the store. -/
theorem exists_header_of_mem_run {space : Namespace} {text : String} {s : Store}
    {rows : List PostedTransaction} (h : run space text s = .ok (.transactions rows))
    {row : PostedTransaction} (hrow : row ∈ rows) :
    ∃ header ∈ s.tables.headers, row.Shows s.tables header := by
  obtain ⟨headers, hsublist, hshows⟩ := forall₂_shows_of_run h
  obtain ⟨header, hheader, hshown⟩ := exists_mem_of_forall₂ hshows hrow
  exact ⟨header, (List.mergeSort_perm _ _).mem_iff.mp (hsublist.mem hheader), hshown⟩

/-- In a store without two headers of one id a search shows a header once or not at all. -/
theorem filter_of_run {space : Namespace} {text : String} {s : Store}
    {rows : List PostedTransaction} (h : run space text s = .ok (.transactions rows))
    (hnodup : (s.tables.headers.map Header.id).Nodup) {header : Header}
    (hheader : header ∈ s.tables.headers) :
    rows.filter (fun row => row.id = header.id) = [] ∨
      ∃ row, rows.filter (fun row => row.id = header.id) = [row] ∧
        row.Shows s.tables header := by
  obtain ⟨headers, hsublist, hshows⟩ := forall₂_shows_of_run h
  have hperm : (headersInOrder s.tables).Perm s.tables.headers := List.mergeSort_perm _ _
  have hids : headers.map Header.id = rows.map PostedTransaction.id :=
    map_eq_map_of_forall₂ hshows fun _ _ hrow => hrow.id.symm
  have hrows : (rows.map PostedTransaction.id).Nodup := by
    rw [← hids]
    exact ((hperm.map Header.id).nodup_iff.mpr hnodup).sublist (hsublist.map Header.id)
  by_cases hfound : ∃ row ∈ rows, row.id = header.id
  · right
    obtain ⟨row, hrow, hid⟩ := hfound
    obtain ⟨found, hfound, hshown⟩ := exists_mem_of_forall₂ hshows hrow
    have hmem : found ∈ s.tables.headers := hperm.mem_iff.mp (hsublist.mem hfound)
    obtain rfl : found = header :=
      List.inj_on_of_nodup_map hnodup hmem hheader (hshown.id.symm.trans hid)
    refine ⟨row, ?_, hshown⟩
    rw [← hid]
    exact filter_eq_singleton_of_nodup hrows hrow
  · left
    apply List.filter_eq_nil_iff.mpr
    intro row hrow
    have hne : row.id ≠ header.id := fun e => hfound ⟨row, hrow, e⟩
    simpa using hne

/-! ## All accounts -/

/-- What a search shows of an account. -/
structure ShowsAccount (t : Tables) (row : AccountRow) (account : Account) : Prop where
  id : account.id = row.id
  balance : t.balance? row.id = some account.balance
  data : Data.ofStored (some row.data) = .ok account.data

/-- A query document that asks for every one of so many rows: it has no constraints, skips nothing
and asks for no fewer rows than there are. -/
structure Query.AsksForAll (q : Query) (count : Nat) : Prop where
  everything : q.isEverything = true
  skip : q.skip.getD 0 ≤ 0
  size : ∀ n ∈ q.size, (count : Int) ≤ n

/-- A group without items has none that say something. -/
theorem Clause.items_of_isEmpty {c : Clause} (h : c.isEmpty = true) (space : Namespace) :
    c.items space = .ok [] := by
  obtain ⟨fields, terms, ranges⟩ := c
  simp only [Clause.isEmpty, Bool.and_eq_true, List.isEmpty_iff] at h
  obtain ⟨⟨rfl, rfl⟩, rfl⟩ := h
  rfl

/-- The plan of a query without constraints has none. -/
theorem Query.plan_of_isEverything {q : Query} (h : q.isEverything = true) (space : Namespace) :
    q.plan space = .ok ⟨[], [], q.size.map Int.toNat, q.skip.map Int.toNat⟩ := by
  obtain ⟨hmust, hshould⟩ := Bool.and_eq_true_iff.mp h
  rw [Query.plan, Clause.items_of_isEmpty hmust, Clause.items_of_isEmpty hshould]
  rfl

/-- A part that leaves out no rows is all of them. -/
theorem Plan.page_eq_self {α : Type} {p : Plan} {rows : List α} (hoffset : p.offset.getD 0 = 0)
    (hlimit : ∀ n ∈ p.limit, rows.length ≤ n) : p.page rows = rows := by
  unfold Plan.page
  rw [hoffset]
  cases h : p.limit with
  | none => rfl
  | some n => exact List.take_of_length_le (hlimit n h)

/-- A query for all rows leaves out none at the front. -/
theorem Query.AsksForAll.offset {q : Query} {count : Nat} (h : q.AsksForAll count) :
    (q.skip.map Int.toNat).getD 0 = 0 := by
  have hskip := h.skip
  cases hq : q.skip with
  | none => rfl
  | some n =>
    rw [hq] at hskip
    simpa using hskip

/-- A query for all rows has room for them. -/
theorem Query.AsksForAll.limit {q : Query} {count : Nat} (h : q.AsksForAll count) :
    ∀ n ∈ q.size.map Int.toNat, count ≤ n := by
  intro n hn
  obtain ⟨size, hsize, rfl⟩ := Option.map_eq_some_iff.mp hn
  have hle := h.size size hsize
  omega

/-- In the order in which a row is held against them, the conditions of a plan are the same. -/
theorem Plan.perm_inOrder (p : Plan) (space : Namespace) : (p.inOrder space).Perm p.conjuncts := by
  have hsplit : ∀ (test : Condition → Bool) (cs : List Condition),
      ((cs.filter fun c => !test c) ++ cs.filter test).Perm cs := fun test cs =>
    List.perm_append_comm.trans (List.filter_append_perm test cs)
  have hfirst := List.filter_append_perm (fun c => c.readsOnly space.ownColumns) p.conjuncts
  unfold inOrder
  simp only [List.partition_eq_filter_filter]
  cases space with
  | accounts =>
    refine .trans (.append_left _ ?_) hfirst
    exact ((List.reverse_perm _).append_right _).trans (hsplit Condition.opensScan _)
  | transactions => exact .trans (.append_left _ (hsplit Condition.opensScan _)) hfirst

/-- A plan without conditions admits every row. -/
theorem Plan.admits_of_nil (space : Namespace) (limit offset : Option Nat)
    (column : Column → Value) (data : Option String) :
    Plan.admits space ⟨[], [], limit, offset⟩ column data = .ok true := by
  unfold Plan.admits
  cases space <;> split <;> rfl

/-- Without conditions every account with a balance is in the result. -/
theorem Plan.accountRows_of_nil {limit offset : Option Nat} {t : Tables}
    (hoffset : offset.getD 0 = 0) (hlimit : ∀ n ∈ limit, t.accounts.length ≤ n)
    {rows : List (AccountRow × Amount)}
    (h : Plan.accountRows ⟨[], [], limit, offset⟩ t = .ok rows) :
    (accountsInOrder t).mapM (withBalance t) = .ok rows := by
  have hlength : (accountsInOrder t).length = t.accounts.length := List.length_mergeSort _
  unfold Plan.accountRows at h
  -- A limit of zero computes no balance, and can only be there when there are no accounts.
  split_ifs at h with hempty
  · have hzero : limit = some 0 := of_decide_eq_true hempty
    have hnone : accountsInOrder t = [] := by
      have hle := hlimit 0 hzero
      exact List.length_eq_zero_iff.mp (by omega)
    obtain rfl : [] = rows := Except.ok.inj h
    rw [hnone]
    rfl
  · have hall : (accountsInOrder t).filter (Plan.admitsId ⟨[], [], limit, offset⟩) =
        accountsInOrder t := List.filter_eq_self.mpr fun _ _ => rfl
    rw [hall] at h
    obtain ⟨found, hfound, h⟩ := bind_eq_ok_iff.mp h
    obtain ⟨admitted, hadmitted, hpage⟩ := bind_eq_ok_iff.mp h
    obtain rfl : found = admitted := by
      have hfilter := Except.ok.inj (hadmitted.symm.trans (filterM_eq_ok fun p _ =>
        Plan.admits_of_nil .accounts limit offset (accountColumn p.1 (some p.2))
          (some p.1.data)))
      rw [hfilter, List.filter_true]
    have hle : found.length = t.accounts.length := by
      rw [← (mapM_eq_ok_iff.mp hfound).length_eq, hlength]
    rw [Plan.page_eq_self hoffset fun n hn => hle ▸ hlimit n hn] at hpage
    rw [hfound, ← Except.ok.inj hpage]

/-- A row with its balance is read as what a search shows of the account. -/
theorem showsAccount_of_readAccount {t : Tables} {row : AccountRow} {found : AccountRow × Amount}
    {account : Account} (hfound : withBalance t row = .ok found)
    (haccount : readAccount found = .ok account) : ShowsAccount t row account := by
  unfold withBalance at hfound
  cases hbalance : t.balance? row.id with
  | none =>
    rw [hbalance] at hfound
    exact absurd hfound (by simp)
  | some balance =>
    rw [hbalance] at hfound
    obtain rfl : (row, balance) = found := Except.ok.inj hfound
    obtain ⟨data, hdata, hread⟩ := bind_eq_ok_iff.mp haccount
    obtain rfl : (⟨row.id, balance, data⟩ : Account) = account := Except.ok.inj hread
    exact ⟨rfl, hbalance, hdata⟩

/-- A search for all accounts shows each of them, in order. -/
theorem forall₂_showsAccount_of_run {space : Namespace} {text : String} {s : Store} {q : Query}
    {rows : List Account} (hquery : Query.ofText text = .ok q)
    (hall : q.AsksForAll s.tables.accounts.length)
    (h : run space text s = .ok (.accounts rows)) :
    List.Forall₂ (ShowsAccount s.tables) (accountsInOrder s.tables) rows := by
  obtain ⟨read, p, hread, hplan, -, h⟩ := exists_plan_of_run h
  obtain rfl : q = read := Except.ok.inj (hquery.symm.trans hread)
  rw [Query.plan_of_isEverything hall.everything] at hplan
  obtain rfl := Except.ok.inj hplan
  cases space with
  | transactions =>
    obtain ⟨-, _, _, -, -, hresults⟩ := Plan.run_transactions_eq_ok_iff.mp h
    exact absurd hresults (by simp)
  | accounts =>
    obtain ⟨-, found, accounts, hfound, haccounts, hresults⟩ := Plan.run_accounts_eq_ok_iff.mp h
    obtain rfl := Results.accounts.inj hresults
    have hbalances := Plan.accountRows_of_nil hall.offset hall.limit hfound
    refine (forall₂_comp (mapM_eq_ok_iff.mp hbalances) (mapM_eq_ok_iff.mp haccounts)).imp ?_
    rintro row account ⟨found, hrow, hread⟩
    exact showsAccount_of_readAccount hrow hread

/-! ## All transactions -/

/-- Without conditions every header is in the result. -/
theorem Plan.headers_of_nil {limit offset : Option Nat} {t : Tables}
    (hoffset : offset.getD 0 = 0) (hlimit : ∀ n ∈ limit, t.headers.length ≤ n) :
    Plan.headers ⟨[], [], limit, offset⟩ t = .ok (headersInOrder t) := by
  have hlength : (headersInOrder t).length = t.headers.length := List.length_mergeSort _
  unfold Plan.headers
  split_ifs with hempty
  · have hzero : limit = some 0 := of_decide_eq_true hempty
    have hle := hlimit 0 hzero
    rw [List.length_eq_zero_iff.mp (by omega : (headersInOrder t).length = 0)]
  · rw [filterM_eq_ok fun header _ =>
      Plan.admits_of_nil .transactions limit offset (headerColumn header) header.data,
      List.filter_true]
    have hpage : Plan.page ⟨[], [], limit, offset⟩ (headersInOrder t) = headersInOrder t :=
      Plan.page_eq_self hoffset fun n hn => hlength ▸ hlimit n hn
    exact congrArg Except.ok hpage

/-- A search for all transactions reads each of them, in order. -/
theorem run_of_asksForAll {text : String} {s : Store} {q : Query}
    (hquery : Query.ofText text = .ok q) (hall : q.AsksForAll s.tables.headers.length)
    (hopen : s.isOpen = true) :
    run .transactions text s = ((headersInOrder s.tables).mapM fun header =>
      readTransaction (transactionRow s.tables header)).map .transactions := by
  rw [run, hquery, Except.mapError, Store.bind_of_eq_ok rfl,
    Query.plan_of_isEverything hall.everything, Except.mapError, Store.bind_of_eq_ok rfl,
    Plan.run_of_open hopen]
  dsimp only
  rw [Plan.headers_of_nil hall.offset hall.limit, Except.mapError, Store.bind_of_eq_ok rfl]
  cases (headersInOrder s.tables).mapM fun header =>
    readTransaction (transactionRow s.tables header) <;> rfl

end DoubleEntry.Search
