import DoubleEntry.Proofs.Amount.Totals
import DoubleEntry.Proofs.Answers
import DoubleEntry.Proofs.Ledger.Journal
import DoubleEntry.Proofs.Time.Order

/-!
# Balances

A balance that is given is the exact sum of what the journal books on the account, and it is given
exactly when every running total on the way is an amount. That every transaction is balanced does
not suffice for this: the running total of an account grows over many of them.

A balance at a time counts the transactions with a timestamp text up to that of the time. These are
the transactions up to the time when no year past 9999 is involved, and no two before zero.
-/

namespace DoubleEntry

open Amount (TotalsFit)
open Time (Timestamp)

namespace Ledger

variable {l : Ledger} {calls : List Call}

/-! ## The balance of an account -/

/-- An account of an open store is given when it has a total and its data can be read. -/
theorem account_of_row {row : AccountRow} (hopen : l.store.isOpen = true)
    (hrow : l.store.tables.account? row.id = some row) :
    l.account row.id =
      match l.store.tables.balance? row.id with
      | none => .error (.store .totalOverflow)
      | some balance => (Data.ofStored (some row.data)).map fun data => ⟨row.id, balance, data⟩ := by
  unfold account Store.account? Store.contents
  rw [if_pos hopen]
  simp only [Except.mapError, bind, Except.bind, hrow]
  cases l.store.tables.balance? row.id with
  | none => rfl
  | some balance => cases Data.ofStored (some row.data) <;> rfl

/-- The balance of an account is the running total of what the journal books on it. -/
theorem HasJournal.balance?_eq (h : l.HasJournal calls) (id : String) :
    l.store.tables.balance? id = Amount.total? (Call.booked id calls) := by
  rw [Tables.balance?, h.records.deltasOf_eq]

/-- An account of an open store is given exactly when every running total of what was booked on it
is an amount and its data can be read, and then its balance is the exact sum. When some running
total is no amount it is not given, even if the sum is one. -/
theorem account_readable_iff (h : l.HasJournal calls) (hopen : l.store.isOpen = true)
    {row : AccountRow} (hrow : row ∈ l.store.tables.accounts) :
    ((∃ account, l.account row.id = .ok account) ↔
      TotalsFit (Call.booked row.id calls) ∧ ∃ data, Data.ofStored (some row.data) = .ok data) ∧
    (∀ account, l.account row.id = .ok account →
      account.id = row.id ∧ account.balance.toInt = Amount.sum (Call.booked row.id calls)) ∧
    (¬ TotalsFit (Call.booked row.id calls) →
      l.account row.id = .error (.store .totalOverflow)) := by
  have hfound := find?_eq_some_of_nodup h.intact.nodup_accounts hrow
  rw [account_of_row hopen hfound, h.balance?_eq]
  cases htotal : Amount.total? (Call.booked row.id calls) with
  | none =>
    have hnot := Amount.total?_eq_none_iff.mp htotal
    simp [hnot]
  | some balance =>
    obtain ⟨hfits, hsum⟩ := Amount.total?_eq_some_iff.mp htotal
    refine ⟨?_, ?_, fun hnot => absurd hfits hnot⟩
    · simp only [map_eq_ok_iff, hfits, true_and]
      exact ⟨fun ⟨_, data, hdata, _⟩ => ⟨data, hdata⟩, fun ⟨data, hdata⟩ => ⟨_, data, hdata, rfl⟩⟩
    · intro account haccount
      obtain ⟨data, -, rfl⟩ := map_eq_ok_iff.mp haccount
      exact ⟨rfl, hsum⟩

/-- Two payments from one account to another, in different years. -/
def payments : List Event :=
  [(Call.dated (.newYear 2000) "1" [⟨"a", 5⟩, ⟨"b", -5⟩]).event,
    (Call.dated (.newYear 2018) "2" [⟨"a", 7⟩, ⟨"b", -7⟩]).event]

/-- The balance of an account to which payments were made can be read. -/
theorem account_readable_payments :
    (uncounted.run payments).2.HasJournal (journal (uncounted.run payments).1) ∧
      (uncounted.run payments).2.store.isOpen = true ∧
      ⟨"a", AccountRow.emptyData⟩ ∈ (uncounted.run payments).2.store.tables.accounts ∧
      ∃ account, (uncounted.run payments).2.account "a" = .ok account ∧
        account.balance.toInt = 12 := by
  have hjournal := hasJournal_run none payments
  have hopen : (uncounted.run payments).2.store.isOpen = true := by decide +kernel
  have hrow : ⟨"a", AccountRow.emptyData⟩ ∈ (uncounted.run payments).2.store.tables.accounts := by
    decide +kernel
  obtain ⟨hreadable, hvalue, -⟩ := account_readable_iff hjournal hopen hrow
  obtain ⟨account, haccount⟩ := hreadable.mpr ⟨by decide +kernel, [], by rfl⟩
  refine ⟨hjournal, hopen, hrow, account, haccount, (hvalue account haccount).2.trans ?_⟩
  decide +kernel

/-- Three transactions of which the second takes an account past the largest amount and the third
takes it back. -/
def overflow : List Event :=
  [(Call.dated (.newYear 2000) "1"
      [⟨"a", 9223372036854775807⟩, ⟨"b", -9223372036854775807⟩]).event,
    (Call.dated (.newYear 2000) "2" [⟨"a", 1⟩, ⟨"c", -1⟩]).event,
    (Call.dated (.newYear 2000) "3" [⟨"a", -1⟩, ⟨"c", 1⟩]).event]

/-- Accepted transactions can make a balance unreadable that is an amount. -/
theorem account_unreadable_overflow :
    (journal (uncounted.run overflow).1).map Call.id = ["1", "2", "3"] ∧
      (uncounted.run overflow).2.store.isOpen = true ∧
      "a" ∈ (uncounted.run overflow).2.store.tables.accounts.map AccountRow.id ∧
      Amount.sum (Call.booked "a" (journal (uncounted.run overflow).1)) = 9223372036854775807 ∧
      (uncounted.run overflow).2.account "a" = .error (.store .totalOverflow) := by
  have hopen : (uncounted.run overflow).2.store.isOpen = true := by decide +kernel
  let row : AccountRow := ⟨"a", AccountRow.emptyData⟩
  have hrow : (uncounted.run overflow).2.store.tables.account? row.id = some row := by
    decide +kernel
  have hbalance : (uncounted.run overflow).2.store.tables.balance? row.id = none := by
    decide +kernel
  have haccount := account_of_row hopen hrow
  rw [hbalance] at haccount
  exact ⟨by decide +kernel, hopen, by decide +kernel, by decide +kernel, haccount⟩

/-! ## The balance at a time -/

/-- The calls that committed their transaction at a time or before it. -/
def upTo (on : Timestamp) (calls : List Call) : List Call :=
  calls.filter fun c => c.timestamp.cmp on ≠ .gt

/-- A balance at a time is given when the store is open and the amounts that count have a total. -/
theorem balanceAt_eq_ok_iff {id : String} {on : Timestamp} {balance : Amount} :
    l.balanceAt id on = .ok balance ↔
      l.store.isOpen = true ∧
        Amount.total? (l.store.tables.deltasUpTo id on.render) = some balance := by
  rw [balanceAt, mapError_eq_ok_iff]
  unfold Store.balanceAt Store.contents
  by_cases hopen : l.store.isOpen = true
  · rw [if_pos hopen]
    simp only [bind, Except.bind, hopen, true_and]
    cases Amount.total? (l.store.tables.deltasUpTo id on.render) <;> simp [pure, Except.pure]
  · rw [if_neg hopen]
    simp [bind, Except.bind, hopen]

/-- An open store gives no balance at a time when the amounts that count have no total. -/
theorem balanceAt_of_eq_none {id : String} {on : Timestamp} (hopen : l.store.isOpen = true)
    (hnone : Amount.total? (l.store.tables.deltasUpTo id on.render) = none) :
    l.balanceAt id on = .error (.store .totalOverflow) := by
  unfold balanceAt Store.balanceAt Store.contents
  rw [if_pos hopen]
  simp only [bind, Except.bind, hnone]
  rfl

/-- Calls that are left out or not by two tests alike when they book on an account book the same on
it under either. -/
theorem booked_filter_congr {id : String} {p q : Call → Prop} [DecidablePred p] [DecidablePred q]
    (h : ∀ c ∈ calls, c.deltasOf id ≠ [] → (p c ↔ q c)) :
    Call.booked id (calls.filter fun c => p c) = Call.booked id (calls.filter fun c => q c) := by
  rw [Call.booked, Call.booked, ← flatMap_ite, ← flatMap_ite]
  refine List.flatMap_congr fun c hc => ?_
  by_cases hnone : c.deltasOf id = []
  · simp [hnone]
  · simp only [h c hc hnone]

/-- A balance at a time is the exact sum of the amounts that transactions up to the time booked on
the account, whenever all their running totals are amounts, provided that the texts of the timestamps
of these transactions and of the time are ordered like themselves. -/
theorem balanceAt_chronological (h : l.HasJournal calls) (hopen : l.store.isOpen = true)
    {id : String} {on : Timestamp}
    (hordered : ∀ c ∈ calls, c.deltasOf id ≠ [] → c.timestamp.IsTextOrdered on) :
    (TotalsFit (Call.booked id (upTo on calls)) →
      ∃ balance, l.balanceAt id on = .ok balance ∧
        balance.toInt = Amount.sum (Call.booked id (upTo on calls))) ∧
    (¬ TotalsFit (Call.booked id (upTo on calls)) →
      l.balanceAt id on = .error (.store .totalOverflow)) := by
  have hdeltas : l.store.tables.deltasUpTo id on.render = Call.booked id (upTo on calls) := by
    rw [h.records.deltasUpTo_eq h.intact]
    exact booked_filter_congr fun c hc hbooks => Timestamp.render_le_iff (hordered c hc hbooks)
  rw [← hdeltas]
  constructor
  · intro hfits
    cases htotal : Amount.total? (l.store.tables.deltasUpTo id on.render) with
    | none => exact absurd hfits (Amount.total?_eq_none_iff.mp htotal)
    | some balance =>
      exact ⟨balance, balanceAt_eq_ok_iff.mpr ⟨hopen, htotal⟩,
        (Amount.total?_eq_some_iff.mp htotal).2⟩
  · intro hnot
    exact balanceAt_of_eq_none hopen (Amount.total?_eq_none_iff.mpr hnot)

/-- Of two payments the one that was made up to a time is counted. -/
theorem balanceAt_chronological_payments :
    (uncounted.run payments).2.HasJournal (journal (uncounted.run payments).1) ∧
      (uncounted.run payments).2.store.isOpen = true ∧
      (∀ c ∈ journal (uncounted.run payments).1, c.deltasOf "a" ≠ [] →
        c.timestamp.IsTextOrdered (.newYear 2017)) ∧
      ∃ balance, (uncounted.run payments).2.balanceAt "a"
          (.newYear 2017) = .ok balance ∧ balance.toInt = 5 := by
  have hjournal := hasJournal_run none payments
  have hopen : (uncounted.run payments).2.store.isOpen = true := by decide +kernel
  have hordered : ∀ c ∈ journal (uncounted.run payments).1, c.deltasOf "a" ≠ [] →
      c.timestamp.IsTextOrdered (.newYear 2017) := by decide +kernel
  obtain ⟨balance, hbalance, hsum⟩ :=
    (balanceAt_chronological hjournal hopen hordered).1 (by decide +kernel)
  exact ⟨hjournal, hopen, hordered, balance, hbalance, hsum.trans (by decide +kernel)⟩

/-- When all transactions are past the year 9999 they are all counted at every time before, although
none of them was made by then. -/
theorem deltasUpTo_of_late (h : l.HasJournal calls) {on : Timestamp} (hon : on.date.year ≤ 9999)
    (hlate : ∀ c ∈ calls, 9999 < c.timestamp.date.year) (id : String) :
    l.store.tables.deltasUpTo id on.render = Call.booked id calls ∧ upTo on calls = [] := by
  constructor
  · rw [h.records.deltasUpTo_eq h.intact, List.filter_eq_self.mpr]
    intro c hc
    simpa using (Timestamp.render_lt_of_late (hlate c hc) hon).1.le
  · apply List.filter_eq_nil_iff.mpr
    intro c hc
    simpa using (Timestamp.render_lt_of_late (hlate c hc) hon).2

/-- A payment in a year of five digits. -/
def latePayment : List Event :=
  [(Call.dated (.newYear 10000) "1" [⟨"a", 5⟩, ⟨"b", -5⟩]).event]

/-- A payment past the year 9999 is counted before it is made. -/
theorem balanceAt_counts_late_payment :
    (journal (uncounted.run latePayment).1).map Call.id = ["1"] ∧
      (uncounted.run latePayment).2.store.isOpen = true ∧
      Amount.sum (Call.booked "a" (upTo (.newYear 2018)
        (journal (uncounted.run latePayment).1))) = 0 ∧
      (uncounted.run latePayment).2.balanceAt "a" (.newYear 2018) =
        .ok 5 := by
  have hjournal : (uncounted.run latePayment).2.HasJournal
      (journal (uncounted.run latePayment).1) := hasJournal_run none latePayment
  have hopen : (uncounted.run latePayment).2.store.isOpen = true := by decide +kernel
  have hlate : ∀ c ∈ journal (uncounted.run latePayment).1, 9999 < c.timestamp.date.year := by
    decide +kernel
  have hon : (Timestamp.newYear 2018).date.year ≤ 9999 := by decide
  obtain ⟨hcounted, hnone⟩ := deltasUpTo_of_late hjournal hon hlate "a"
  have htotal : Amount.total? (Call.booked "a" (journal (uncounted.run latePayment).1)) =
      some 5 := by decide +kernel
  rw [← hcounted] at htotal
  refine ⟨by decide +kernel, hopen, ?_, balanceAt_eq_ok_iff.mpr ⟨hopen, htotal⟩⟩
  rw [hnone]
  rfl

end Ledger

end DoubleEntry
