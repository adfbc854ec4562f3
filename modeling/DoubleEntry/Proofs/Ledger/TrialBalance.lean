import DoubleEntry.Proofs.Ledger.Balances
import DoubleEntry.Proofs.Search.Rows

/-!
# The trial balance

Every line that counts belongs to a stored account, and every transaction counts as a whole or not
at all. So the balances of all accounts add up to what the transactions add up to, one by one, which
is zero: at every time, and for the balances that a search shows.
-/

namespace DoubleEntry

namespace Ledger

variable {l : Ledger} {calls : List Call}

/-- What balanced transactions book on all accounts that they name adds up to zero. -/
theorem sum_booked_eq_zero (hvalid : ∀ c ∈ calls, c.transaction.Valid) {ids : List String}
    (hnodup : ids.Nodup) (hids : ∀ c ∈ calls, ∀ line ∈ c.transaction.lines, line.account ∈ ids) :
    (ids.map fun id => Amount.sum (Call.booked id calls)).sum = 0 := by
  let lines := calls.flatMap fun c => c.transaction.lines
  let value : Line → Int := fun line => line.delta.toInt
  have hbooked : ∀ id, Amount.sum (Call.booked id calls) =
      ((lines.filter fun line => line.account = id).map value).sum := by
    intro id
    have hlines : Call.booked id calls =
        (lines.filter fun line => line.account = id).map Line.delta := by
      rw [List.filter_flatMap, List.map_flatMap]
      rfl
    rw [hlines, Amount.sum_eq, List.map_map]
    rfl
  have haccounts : ∀ line ∈ lines, line.account ∈ ids := by
    intro line hline
    obtain ⟨c, hc, hline⟩ := List.mem_flatMap.mp hline
    exact hids c hc line hline
  calc (ids.map fun id => Amount.sum (Call.booked id calls)).sum
      = (ids.map fun id => ((lines.filter fun line => line.account = id).map value).sum).sum := by
        simp only [hbooked]
    _ = (lines.map value).sum := sum_map_sum_filter value hnodup haccounts
    _ = (calls.map fun c => (c.transaction.lines.map value).sum).sum := by
        rw [List.map_flatMap, List.flatMap_def, List.sum_flatten, List.map_map]
        rfl
    _ = 0 := by
        apply List.sum_eq_zero
        intro n hn
        obtain ⟨c, hc, rfl⟩ := List.mem_map.mp hn
        exact (hvalid c hc).balanced

/-- Every account that a transaction of the journal names is stored. -/
theorem HasJournal.account_mem (h : l.HasJournal calls) {c : Call} (hc : c ∈ calls) {line : Line}
    (hline : line ∈ c.transaction.lines) :
    line.account ∈ l.store.tables.accounts.map AccountRow.id := by
  have hmem : (c.id, line) ∈ l.store.tables.lines.map fun row => (row.transaction, row.line) := by
    rw [h.records.lines]
    exact List.mem_flatMap.mpr ⟨c, hc, List.mem_map_of_mem hline⟩
  obtain ⟨row, hrow, heq⟩ := List.mem_map.mp hmem
  rw [← (Prod.mk.inj heq).2]
  exact h.intact.account_of_line row hrow

/-- What some transactions of the journal book on all stored accounts adds up to zero. -/
theorem HasJournal.sum_booked_eq_zero (h : l.HasJournal calls) {counted : List Call}
    (hcounted : ∀ c ∈ counted, c ∈ calls) :
    (l.store.tables.accounts.map fun row => Amount.sum (Call.booked row.id counted)).sum = 0 := by
  have hsum := Ledger.sum_booked_eq_zero (fun c hc => h.records.valid c (hcounted c hc))
    h.intact.nodup_accounts fun c hc line hline => h.account_mem (hcounted c hc) hline
  rwa [List.map_map] at hsum

/-- At every time the balances of all stored accounts add up to zero, and so do the balances that a
search for all accounts shows. -/
theorem trial_balance (hreachable : l.Reachable) :
    (∀ on balances,
      l.store.tables.accounts.mapM (fun row => l.balanceAt row.id on) = .ok balances →
        (balances.map Int64.toInt).sum = 0) ∧
    ∀ text q rows, Search.Query.ofText text = .ok q →
      q.AsksForAll l.store.tables.accounts.length →
      (l.searchIn "accounts" text).1 = .ok (.accounts rows) →
        (rows.map fun account => account.balance.toInt).sum = 0 := by
  obtain ⟨calls, hcalls⟩ := hreachable.exists_hasJournal
  constructor
  · intro on balances hbalances
    let counted := calls.filter fun c => c.timestamp.render ≤ on.render
    have hvalues : (l.store.tables.accounts.map fun row =>
        Amount.sum (Call.booked row.id counted)) = balances.map Int64.toInt := by
      refine map_eq_map_of_forall₂ (mapM_eq_ok_iff.mp hbalances) fun row balance hbalance => ?_
      have htotal := (balanceAt_eq_ok_iff.mp hbalance).2
      rw [hcalls.records.deltasUpTo_eq hcalls.intact] at htotal
      exact (Amount.total?_eq_some_iff.mp htotal).2.symm
    rw [← hvalues]
    exact hcalls.sum_booked_eq_zero fun c hc => (List.mem_filter.mp hc).1
  · intro text q rows hquery hall hrows
    obtain ⟨space, -, hrun⟩ := exists_run_of_searchIn hrows
    have hshown := Search.forall₂_showsAccount_of_run hquery hall hrun
    have hvalues : ((Search.accountsInOrder l.store.tables).map fun row =>
        Amount.sum (Call.booked row.id calls)) = rows.map fun account => account.balance.toInt := by
      refine map_eq_map_of_forall₂ hshown fun row account haccount => ?_
      have htotal := haccount.balance
      rw [hcalls.balance?_eq] at htotal
      exact (Amount.total?_eq_some_iff.mp htotal).2.symm
    have hperm : (Search.accountsInOrder l.store.tables).Perm l.store.tables.accounts :=
      List.mergeSort_perm _ _
    rw [← hvalues, (hperm.map _).sum_eq]
    exact hcalls.sum_booked_eq_zero fun c hc => hc

/-- The balances of the accounts between which payments were made add up to zero. -/
theorem trial_balance_payments :
    (uncounted.run payments).2.Reachable ∧
      (uncounted.run payments).2.store.tables.accounts.mapM (fun row =>
        (uncounted.run payments).2.balanceAt row.id (.newYear 2017)) =
          .ok [5, -5] ∧
      (([5, -5] : List Amount).map Int64.toInt).sum = 0 := by
  have hreachable : (uncounted.run payments).2.Reachable := ⟨none, payments, rfl⟩
  have hbalances : (uncounted.run payments).2.store.tables.accounts.mapM (fun row =>
      (uncounted.run payments).2.balanceAt row.id (.newYear 2017)) =
        .ok [5, -5] := by decide +kernel
  exact ⟨hreachable, hbalances, (trial_balance hreachable).1 _ _ hbalances⟩

end Ledger

end DoubleEntry
