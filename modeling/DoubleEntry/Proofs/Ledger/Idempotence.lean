import DoubleEntry.Proofs.Ledger.History

/-!
# Submitting a transaction again

Whatever happens to a ledger, a transaction is created once at most, and it was created exactly when
it is in the store. What a submission is answered depends on the transaction, on what is stored
under its id and, for a new id only, on whether its rows are refused.
-/

namespace DoubleEntry

/-- A transaction is not valid exactly when one of its checks fails. -/
theorem Transaction.not_valid_iff (t : Transaction) :
    ¬ t.Valid ↔ Text.isBlankText t.id = true ∨
      (∃ line ∈ t.lines, Text.isBlankText line.account = true) ∨
      (t.lines.map fun line => line.delta.toInt).sum ≠ 0 ∨
      ∃ key ∈ t.data.keys, ¬ DataKey.Matches key := by
  constructor
  · intro h
    by_contra hnone
    simp only [not_or, not_exists, not_and, Bool.not_eq_true, not_not] at hnone
    obtain ⟨hid, haccounts, hsum, hkeys⟩ := hnone
    exact h ⟨hid, haccounts, hsum, hkeys⟩
  · rintro (hid | ⟨line, hline, haccount⟩ | hsum | ⟨key, hkey, hnot⟩) h
    · exact absurd hid (by simp [h.id_not_blank])
    · exact absurd haccount (by simp [h.accounts_not_blank line hline])
    · exact hsum h.balanced
    · exact hnot (h.keys_match key hkey)

/-- Whether an answered event is the creation of a transaction. -/
def Event.creates (id : String) : Event × Answer → Bool
  | (.submit _ t, .outcome (.ok .created)) => t.id = id
  | _ => false

namespace Tables

/-- How many headers a transaction is to have: one if it has any. -/
def headerCount (t : Tables) (id : String) : Nat := if (t.header? id).isSome = true then 1 else 0

end Tables

namespace Ledger

/-- One event creates a transaction exactly when it gives it a header. -/
theorem headerCount_respond (l : Ledger) (e : Event) (id : String) :
    (if Event.creates id (e, (l.respond e).1) = true then 1 else 0) +
        l.store.tables.headerCount id =
      (l.respond e).2.store.tables.headerCount id := by
  rcases l.respond_cases e with ⟨clock, t, rfl, -, habsent, hanswer, htables⟩ | ⟨hnot, hedit⟩
  · rw [hanswer, htables, Tables.headerCount, Tables.headerCount]
    simp only [Tables.header?_withTransaction_isSome, Event.creates, decide_eq_true_eq]
    by_cases hid : t.id = id
    · subst hid
      have hsome : (l.store.tables.header? t.id).isSome = false := by simpa using habsent
      simp [hsome]
    · have hne : id ≠ t.id := fun e => hid e.symm
      simp [hid, hne]
  · have hcreates : Event.creates id (e, (l.respond e).1) = false := by
      unfold Event.creates
      split
      · rename_i clock t heq
        obtain ⟨rfl, hanswer⟩ := Prod.mk.inj heq
        exact absurd hanswer (hnot clock t rfl)
      · rfl
    have hsame : ((l.respond e).2.store.tables.header? id).isSome = true ↔
        (l.store.tables.header? id).isSome = true := by
      rw [Tables.header?_isSome_iff, Tables.header?_isSome_iff, hedit.map_headers_id]
    rw [hcreates, Tables.headerCount, Tables.headerCount]
    simp only [hsame, Bool.false_eq_true, if_false, Nat.zero_add]

/-- The creations of a transaction in a history are as many as the headers it gets. -/
theorem countP_creates_run (l : Ledger) (events : List Event) (id : String) :
    (l.run events).1.countP (Event.creates id) + l.store.tables.headerCount id =
      (l.run events).2.store.tables.headerCount id := by
  induction events generalizing l with
  | nil => simp [run]
  | cons e rest ih =>
    have hstep := l.headerCount_respond e id
    have hrest := ih (l.respond e).2
    rw [run_cons_fst, run_cons_snd, List.countP_cons]
    omega

/-- An open store answers a submission with a fault of its input exactly when it is not valid. -/
theorem submit_input_iff (clock : Clock) (t : Transaction) {l : Ledger}
    (hopen : l.store.isOpen = true) :
    (∃ fault, (l.submit clock t).1 = .error (.input fault)) ↔ ¬ t.Valid := by
  constructor
  · rintro ⟨fault, hfault⟩ hvalid
    by_cases hpresent : (l.store.tables.header? t.id).isSome = true
    · rw [submit_of_present clock hvalid hopen hpresent] at hfault
      exact absurd hfault (by simp)
    · have habsent : (l.store.tables.header? t.id).isNone = true := by simpa using hpresent
      by_cases hrefused : l.store.RefusesRows t
      · obtain ⟨other, hother⟩ := submit_of_refused clock hvalid hopen habsent hrefused
        rw [hother] at hfault
        exact absurd hfault (by simp)
      · rw [submit_of_accepted clock hvalid hopen habsent hrefused] at hfault
        exact absurd hfault (by simp)
  · intro hnot
    obtain ⟨fault, hfault⟩ := submit_of_not_valid (l := l) clock hnot
    exact ⟨fault, by rw [hfault]⟩

/-- A valid submission under a known id is a duplicate when it has the stored lines in some order,
and otherwise a conflict. -/
theorem submit_known_answer (clock : Clock) {t : Transaction} {l : Ledger} (hvalid : t.Valid)
    (hopen : l.store.isOpen = true) (hpresent : (l.store.tables.header? t.id).isSome = true) :
    (t.lines.Perm (l.store.tables.linesOf t.id) → (l.submit clock t).1 = .ok .duplicate) ∧
      (¬ t.lines.Perm (l.store.tables.linesOf t.id) → (l.submit clock t).1 = .ok .conflict) := by
  rw [submit_of_present clock hvalid hopen hpresent]
  unfold Submission.verdict
  constructor
  · intro hperm
    rw [if_pos ((Line.same_iff_perm _ _).mpr hperm.symm)]
  · intro hnot
    rw [if_neg fun hsame => hnot ((Line.same_iff_perm _ _).mp hsame).symm]

/-- In every history of a new ledger a transaction is created once if it is in the store at the end
and never otherwise. At every point at which the store is open a submission is answered as follows:
it is faulty when one of its checks fails; under a known id it is a duplicate or a conflict, by its
lines alone; under a new id it is created unless its rows are refused. -/
theorem submit_idempotent (metrics : Option Metrics) (events : List Event) :
    (∀ id, (run ⟨.empty, metrics⟩ events).1.countP (Event.creates id) =
      if ((run ⟨.empty, metrics⟩ events).2.store.tables.header? id).isSome = true then 1 else 0) ∧
    ∀ l, l = (run ⟨.empty, metrics⟩ events).2 → l.store.isOpen = true → ∀ clock t,
      ((∃ fault, (l.submit clock t).1 = .error (.input fault)) ↔
        Text.isBlankText t.id = true ∨
          (∃ line ∈ t.lines, Text.isBlankText line.account = true) ∨
          (t.lines.map fun line => line.delta.toInt).sum ≠ 0 ∨
          ∃ key ∈ t.data.keys, ¬ DataKey.Matches key) ∧
      (t.Valid → (l.store.tables.header? t.id).isSome = true →
        (t.lines.Perm (l.store.tables.linesOf t.id) → (l.submit clock t).1 = .ok .duplicate) ∧
        (¬ t.lines.Perm (l.store.tables.linesOf t.id) → (l.submit clock t).1 = .ok .conflict)) ∧
      (t.Valid → (l.store.tables.header? t.id).isNone = true →
        (¬ l.store.RefusesRows t → (l.submit clock t).1 = .ok .created) ∧
        (l.store.RefusesRows t →
          ∃ fault, (l.submit clock t).1 = .error (.commit t.id fault))) := by
  refine ⟨fun id => ?_, fun l _ hopen clock t => ⟨?_, ?_, fun hvalid habsent => ⟨?_, ?_⟩⟩⟩
  · have hcount := countP_creates_run ⟨.empty, metrics⟩ events id
    have hempty : Tables.headerCount Store.empty.tables id = 0 := rfl
    rwa [hempty, Nat.add_zero] at hcount
  · rw [submit_input_iff clock t hopen, Transaction.not_valid_iff]
  · exact fun hvalid hpresent => submit_known_answer clock hvalid hopen hpresent
  · intro hrefused
    rw [submit_of_accepted clock hvalid hopen habsent hrefused]
  · intro hrefused
    obtain ⟨fault, hfault⟩ := submit_of_refused clock hvalid hopen habsent hrefused
    exact ⟨fault, by rw [hfault]⟩

end Ledger

end DoubleEntry
