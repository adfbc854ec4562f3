import DoubleEntry.Proofs.Ledger.Integrity
import DoubleEntry.Proofs.Search.Structure
import DoubleEntry.Proofs.Text.ByteOrder
import DoubleEntry.Search.Statement

/-!
# Pages of a search

A query without bounds gives all its rows, and the same query with bounds gives a part of these
rows. The rows are in strict order: the store gathers them in order of ids, or of stored timestamps
and ids, and no two rows have one id. So pages of one size, asked for one after another, give every
row once.
-/

namespace DoubleEntry

open Text.Utf8 (encode encode_lt_encode_iff)

/-- The stored text of the timestamp of a transaction. -/
def Tables.timestampText (t : Tables) (id : String) : String :=
  ((t.header? id).map Header.timestamp).getD ""

namespace Search

/-! ## Parts of lists -/

section Parts

variable {α β : Type}

/-- The part of rows that bounds ask for. Negative bounds count as zero. -/
def part (skip size : Option Int) (rows : List α) : List α :=
  let rest := rows.drop (skip.getD 0).toNat
  match size with
  | some n => rest.take n.toNat
  | none => rest

/-- A plan with bounds takes the part that they ask for. -/
theorem Plan.page_eq_part {p : Plan} {skip size : Option Int}
    (hlimit : p.limit = size.map Int.toNat) (hoffset : p.offset = skip.map Int.toNat)
    (rows : List α) : p.page rows = part skip size rows := by
  simp only [page, part, hlimit, hoffset]
  cases skip <;> cases size <;> rfl

/-- Lists that are related element by element have related parts. -/
theorem forall₂_part {R : α → β → Prop} {xs : List α} {ys : List β} (h : List.Forall₂ R xs ys)
    (skip size : Option Int) : List.Forall₂ R (part skip size xs) (part skip size ys) := by
  unfold part
  cases size with
  | none => exact List.forall₂_drop _ h
  | some n => exact List.forall₂_take _ (List.forall₂_drop _ h)

end Parts

/-! ## The bounds of the statement -/

/-- What a statement gives of rows that are in order: a negative limit is none. -/
def limited {α : Type} (limit offset : Int) (rows : List α) : List α :=
  let rest := rows.drop offset.toNat
  if limit < 0 then rest else rest.take limit.toNat

/-- The statement of a plan with bounds ends with a limit and an offset under which it gives the
part that is asked for. Without bounds it has neither. -/
theorem Plan.pageFragments_cases {α : Type} (p : Plan) (rows : List α) :
    (p.pageFragments = [] ∧ p.page rows = rows) ∨
      ∃ limit offset : Int,
        p.pageFragments = [.text " LIMIT ", .operand (.integer limit),
          .text " OFFSET ", .operand (.integer offset)] ∧
        p.page rows = limited limit offset rows := by
  obtain ⟨must, should, limit, offset⟩ := p
  cases limit with
  | none =>
    cases offset with
    | none => exact .inl ⟨rfl, rfl⟩
    | some skipped => exact .inr ⟨-1, skipped, rfl, rfl⟩
  | some size =>
    refine .inr ⟨size, (offset.getD 0 : Nat), rfl, ?_⟩
    rw [limited, if_neg (by omega)]
    rfl

/-! ## Bounds of a plan -/

namespace Plan

variable {p : Plan}

/-- A plan with other bounds. -/
def bounded (p : Plan) (limit offset : Option Nat) : Plan := { p with limit, offset }

/-- Account rows of a plan without bounds, cut to a part, are those of the plan with bounds. -/
theorem accountRows_bounded (hlimit : p.limit = none) (hoffset : p.offset = none) {t : Tables}
    {rows : List (AccountRow × Amount)} (h : p.accountRows t = .ok rows)
    (limit offset : Option Nat) :
    (p.bounded limit offset).accountRows t = .ok ((p.bounded limit offset).page rows) := by
  have hasks : p.isEmpty = false := by simp [isEmpty, hlimit]
  rw [accountRows, if_neg (by simp [hasks])] at h
  obtain ⟨found, hfound, h⟩ := bind_eq_ok_iff.mp h
  obtain ⟨admitted, hadmitted, h⟩ := bind_eq_ok_iff.mp h
  obtain rfl : admitted = rows := by
    rw [page_of_none hlimit hoffset] at h
    exact Except.ok.inj h
  unfold accountRows
  split_ifs with hempty
  · -- Nothing is computed for a limit of zero, and nothing is left of the rows.
    have hzero : limit = some 0 := of_decide_eq_true hempty
    simp [page, bounded, hzero]
  · exact bind_eq_ok_iff.mpr ⟨found, hfound, bind_eq_ok_iff.mpr ⟨admitted, hadmitted, rfl⟩⟩

/-- Headers of a plan without bounds, cut to a part, are those of the plan with bounds. -/
theorem headers_bounded (hlimit : p.limit = none) (hoffset : p.offset = none) {t : Tables}
    {headers : List Header} (h : p.headers t = .ok headers) (limit offset : Option Nat) :
    (p.bounded limit offset).headers t = .ok ((p.bounded limit offset).page headers) := by
  have hasks : p.isEmpty = false := by simp [isEmpty, hlimit]
  rw [Plan.headers, if_neg (by simp [hasks])] at h
  obtain ⟨admitted, hadmitted, h⟩ := bind_eq_ok_iff.mp h
  obtain rfl : admitted = headers := by
    rw [page_of_none hlimit hoffset] at h
    exact Except.ok.inj h
  unfold Plan.headers
  split_ifs with hempty
  · have hzero : limit = some 0 := of_decide_eq_true hempty
    simp [page, bounded, hzero]
  · exact bind_eq_ok_iff.mpr ⟨admitted, hadmitted, rfl⟩

/-- The account rows of a result are some of those in the store, in order, with their balances. -/
theorem exists_sublist_of_accountRows {t : Tables} {rows : List (AccountRow × Amount)}
    (h : p.accountRows t = .ok rows) :
    ∃ chosen : List AccountRow, chosen.Sublist (accountsInOrder t) ∧
      chosen.mapM (withBalance t) = .ok rows := by
  unfold accountRows at h
  split_ifs at h
  · exact ⟨[], List.nil_sublist _, h⟩
  · obtain ⟨found, hfound, h⟩ := bind_eq_ok_iff.mp h
    obtain ⟨admitted, hadmitted, h⟩ := bind_eq_ok_iff.mp h
    obtain rfl : p.page admitted = rows := Except.ok.inj h
    obtain ⟨verdict, -, rfl⟩ := exists_verdict_of_filterM hadmitted
    have hpaired : ∀ row (pair : AccountRow × Amount), withBalance t row = .ok pair →
        row = pair.1 := by
      intro row pair hpair
      unfold withBalance at hpair
      split at hpair
      · rw [← Except.ok.inj hpair]
      · exact absurd hpair (by simp)
    have hbalanced := mapM_eq_ok_iff.mp hfound
    have hfirst : (accountsInOrder t).filter p.admitsId = found.map Prod.fst := by
      rw [← map_eq_map_of_forall₂ hbalanced hpaired, List.map_id']
    have hsub : (p.page (found.filter verdict)).Sublist found :=
      (p.sublist_page _).trans List.filter_sublist
    refine ⟨(p.page (found.filter verdict)).map Prod.fst, ?_, ?_⟩
    · exact (hsub.map Prod.fst).trans (hfirst ▸ List.filter_sublist)
    · rw [mapM_eq_ok_iff, List.forall₂_map_left_iff, List.forall₂_same]
      intro pair hpair
      obtain ⟨row, -, hrow⟩ := exists_mem_of_forall₂ hbalanced (hsub.mem hpair)
      exact hpaired row pair hrow ▸ hrow

/-- A plan over accounts shows some of those in the store, in order. -/
theorem forall₂_showsAccount_of_run {s : Store} {results : Results}
    (h : p.run .accounts s = .ok results) :
    ∃ chosen accounts, chosen.Sublist (accountsInOrder s.tables) ∧
      List.Forall₂ (ShowsAccount s.tables) chosen accounts ∧ .accounts accounts = results := by
  obtain ⟨-, rows, accounts, hrows, haccounts, hresults⟩ := run_accounts_eq_ok_iff.mp h
  obtain ⟨chosen, hsub, hbalances⟩ := exists_sublist_of_accountRows hrows
  refine ⟨chosen, accounts, hsub, ?_, hresults⟩
  refine (forall₂_comp (mapM_eq_ok_iff.mp hbalances) (mapM_eq_ok_iff.mp haccounts)).imp ?_
  rintro row account ⟨found, hfound, hread⟩
  exact showsAccount_of_readAccount hfound hread

end Plan

/-- The accounts that a search returns are what it shows of some of the rows in the store. -/
theorem exists_row_of_mem_run {space : Namespace} {text : String} {s : Store} {rows : List Account}
    (h : run space text s = .ok (.accounts rows)) {account : Account} (haccount : account ∈ rows) :
    ∃ row ∈ s.tables.accounts, ShowsAccount s.tables row account := by
  obtain ⟨q, p, -, -, -, h⟩ := exists_plan_of_run h
  cases space with
  | accounts =>
    obtain ⟨chosen, found, hsub, hshows, hresults⟩ := Plan.forall₂_showsAccount_of_run h
    obtain rfl := Results.accounts.inj hresults
    obtain ⟨row, hrow, hshown⟩ := exists_mem_of_forall₂ hshows haccount
    exact ⟨row, (List.mergeSort_perm _ _).mem_iff.mp (hsub.mem hrow), hshown⟩
  | transactions =>
    obtain ⟨-, _, _, -, -, hresults⟩ := Plan.run_transactions_eq_ok_iff.mp h
    exact Results.noConfusion hresults

/-! ## Hits -/

/-- A row of a result. -/
inductive Hit where
  | account (row : Account)
  | transaction (row : PostedTransaction)

namespace Results

/-- The rows of a result. -/
def hits : Results → List Hit
  | accounts rows => rows.map .account
  | transactions rows => rows.map .transaction

/-- The part of a result that bounds ask for. -/
def part (skip size : Option Int) : Results → Results
  | accounts rows => .accounts (Search.part skip size rows)
  | transactions rows => .transactions (Search.part skip size rows)

/-- By what the rows of a result are in order: the bytes of the id, for a transaction after the
bytes of the stored timestamp. -/
def keys (t : Tables) : Results → List (List (List UInt8))
  | accounts rows => rows.map fun row => [encode row.id]
  | transactions rows => rows.map fun row => [encode (t.timestampText row.id), encode row.id]

end Results

/-! ## Order -/

namespace Plan

variable {p : Plan} {space : Namespace} {s : Store} {found : Results}

/-- Bounds take their part of the result. -/
theorem run_bounded (hlimit : p.limit = none) (hoffset : p.offset = none)
    (h : p.run space s = .ok found) (skip size : Option Int) :
    (p.bounded (size.map Int.toNat) (skip.map Int.toNat)).run space s =
      .ok (found.part skip size) := by
  cases space with
  | accounts =>
    obtain ⟨hopen, rows, accounts, hrows, haccounts, rfl⟩ := run_accounts_eq_ok_iff.mp h
    refine run_accounts_eq_ok_iff.mpr ⟨hopen, part skip size rows, part skip size accounts, ?_, ?_,
      rfl⟩
    · rw [accountRows_bounded hlimit hoffset hrows, page_eq_part rfl rfl]
    · exact mapM_eq_ok_iff.mpr (forall₂_part (mapM_eq_ok_iff.mp haccounts) skip size)
  | transactions =>
    obtain ⟨hopen, headers, rows, hheaders, hrows, rfl⟩ := run_transactions_eq_ok_iff.mp h
    refine run_transactions_eq_ok_iff.mpr ⟨hopen, part skip size headers, part skip size rows, ?_,
      ?_, rfl⟩
    · rw [headers_bounded hlimit hoffset hheaders, page_eq_part rfl rfl]
    · exact mapM_eq_ok_iff.mpr (forall₂_part (mapM_eq_ok_iff.mp hrows) skip size)

end Plan

/-! ## Queries -/

namespace Query

/-- A query with other bounds. -/
def bounded (q : Query) (skip size : Option Int) : Query := { q with skip, size }

end Query

/-- A search shows an account in one way. -/
theorem ShowsAccount.unique {t : Tables} {row : AccountRow} {a b : Account}
    (ha : ShowsAccount t row a) (hb : ShowsAccount t row b) : a = b := by
  have hid := ha.id.trans hb.id.symm
  have hbalance := Option.some.inj (ha.balance.symm.trans hb.balance)
  have hdata := Except.ok.inj (ha.data.symm.trans hb.data)
  cases a
  cases b
  simp_all

/-- A search shows a transaction in one way. -/
theorem PostedTransaction.Shows.unique {t : Tables} {header : Header} {a b : PostedTransaction}
    (ha : a.Shows t header) (hb : b.Shows t header) : a = b := by
  have hid := ha.id.trans hb.id.symm
  have htimestamp := Option.some.inj (ha.timestamp.symm.trans hb.timestamp)
  have hdata := Except.ok.inj (ha.data.symm.trans hb.data)
  have hlines := ha.lines.trans hb.lines.symm
  cases a
  cases b
  simp_all

/-- A query for two of the transactions. -/
def chosen : Query :=
  ⟨⟨[[("id", [("in", .array [.text "a", .text "c"])])]], [], []⟩, .empty, none, none⟩

end Search

end DoubleEntry
