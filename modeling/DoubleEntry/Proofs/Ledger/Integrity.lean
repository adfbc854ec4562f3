import DoubleEntry.Proofs.Ledger.History
import DoubleEntry.Proofs.Store.Data
import DoubleEntry.Proofs.Time.ReadBack

/-!
# Integrity of the tables

The tables of a ledger refer to each other without gaps, every transaction in them is balanced, and
every id and text in them is one that the checks of the ledger let through. This holds of empty
tables and is preserved by every change that an event can make.
-/

namespace DoubleEntry

open Time (Timestamp)

/-- A stored timestamp text that is the text of the timestamp read from it. -/
def Time.Timestamp.IsCanonical (text : String) : Prop :=
  ∃ t, Timestamp.parse? text = some t ∧ t.render = text

/-- The text of a timestamp is canonical. -/
theorem Time.Timestamp.isCanonical_render (t : Timestamp) : Timestamp.IsCanonical t.render :=
  ⟨t, t.parse?_render, rfl⟩

namespace Tables

variable {t : Tables}

/-! ## Keys -/

/-- Rows are told apart by their ids, which are the primary keys of their tables. -/
structure HasKeys (t : Tables) : Prop where
  accounts : (t.accounts.map AccountRow.id).Nodup
  headers : (t.headers.map Header.id).Nodup

/-- The accounts that a transaction brings with it are those of its lines that were not there. -/
theorem map_id_accounts_withTransaction (t : Tables) (txn : Transaction) (at_ : Timestamp) :
    (t.withTransaction txn at_).accounts.map AccountRow.id =
      t.accounts.map AccountRow.id ++ t.missing (Line.accounts txn.lines) := by
  simp [withTransaction, Function.comp_def]

/-- A transaction brings its own header with it. -/
theorem map_id_headers_withTransaction (t : Tables) (txn : Transaction) (at_ : Timestamp) :
    (t.withTransaction txn at_).headers.map Header.id = t.headers.map Header.id ++ [txn.id] := by
  simp [withTransaction]

/-- A new account is behind those that were there. -/
theorem map_id_withAccount (t : Tables) (id : String) (data : Data) :
    (t.withAccount id data).accounts.map AccountRow.id = t.accounts.map AccountRow.id ++ [id] := by
  simp [withAccount]

/-- An account that is missing has no row, and is one of those asked for. -/
theorem mem_missing_iff {names : List String} {name : String} :
    name ∈ t.missing names ↔ name ∈ names ∧ name ∉ t.accounts.map AccountRow.id := by
  rw [missing, List.mem_filter, ← account?_isSome_iff]
  simp

namespace HasKeys

/-- A transaction with a new id is added. -/
theorem withTransaction (h : t.HasKeys) {txn : Transaction} (at_ : Timestamp)
    (habsent : (t.header? txn.id).isNone = true) : (t.withTransaction txn at_).HasKeys where
  accounts := by
    rw [map_id_accounts_withTransaction, List.nodup_append]
    exact ⟨h.accounts, (Line.nodup_accounts txn.lines).filter _,
      fun old hold name hname e => (mem_missing_iff.mp hname).2 (e ▸ hold)⟩
  headers := by
    have hnew : txn.id ∉ t.headers.map Header.id := by
      rw [← header?_isSome_iff]
      simpa using habsent
    rw [map_id_headers_withTransaction, List.nodup_append]
    exact ⟨h.headers, List.nodup_singleton _,
      fun old hold id hid e => hnew (List.mem_singleton.mp hid ▸ e ▸ hold)⟩

/-- A new account is added. -/
theorem withAccount (h : t.HasKeys) {id : String} (data : Data)
    (habsent : (t.account? id).isNone = true) : (t.withAccount id data).HasKeys where
  accounts := by
    have hnew : id ∉ t.accounts.map AccountRow.id := by
      rw [← account?_isSome_iff]
      simpa using habsent
    rw [map_id_withAccount, List.nodup_append]
    exact ⟨h.accounts, List.nodup_singleton _,
      fun old hold name hname e => hnew (List.mem_singleton.mp hname ▸ e ▸ hold)⟩
  headers := h.headers

/-- Every edit leaves tables their keys. -/
theorem edit (h : t.HasKeys) {after : Tables} (hedit : t.Edit after) : after.HasKeys := by
  cases hedit with
  | none => exact h
  | account _ _ habsent => exact h.withAccount _ habsent
  | accountData id _ => exact ⟨(t.map_id_withAccountData id _) ▸ h.accounts, h.headers⟩
  | headerData id _ => exact ⟨h.accounts, (t.map_id_withHeaderData id _) ▸ h.headers⟩

end HasKeys

/-! ## Integrity -/

/-- Tables as the ledger keeps them. -/
structure Intact (t : Tables) : Prop where
  nodup_accounts : (t.accounts.map AccountRow.id).Nodup
  nodup_headers : (t.headers.map Header.id).Nodup
  /-- Every line refers to a header. -/
  header_of_line : ∀ row ∈ t.lines, row.transaction ∈ t.headers.map Header.id
  /-- Every line refers to an account. -/
  account_of_line : ∀ row ∈ t.lines, row.line.account ∈ t.accounts.map AccountRow.id
  /-- The numbers of lines increase in the order in which they were added. -/
  lines_increasing : t.lines.Pairwise fun a b => a.id < b.id
  /-- The deltas of every transaction add up to zero as integers. -/
  balanced : ∀ header ∈ t.headers,
    ((t.linesOf header.id).map fun line => line.delta.toInt).sum = 0
  account_not_blank : ∀ row ∈ t.accounts, Text.isBlankText row.id = false
  header_not_blank : ∀ header ∈ t.headers, Text.isBlankText header.id = false
  line_not_blank : ∀ row ∈ t.lines, Text.isBlankText row.line.account = false
  account_data : ∀ row ∈ t.accounts, Data.IsSound (some row.data)
  header_data : ∀ header ∈ t.headers, Data.IsSound header.data
  timestamps : ∀ header ∈ t.headers, Timestamp.IsCanonical header.timestamp

/-- Empty tables are intact. -/
theorem intact_empty : empty.Intact where
  nodup_accounts := List.nodup_nil
  nodup_headers := List.nodup_nil
  header_of_line := by simp [empty]
  account_of_line := by simp [empty]
  lines_increasing := List.Pairwise.nil
  balanced := by simp [empty]
  account_not_blank := by simp [empty]
  header_not_blank := by simp [empty]
  line_not_blank := by simp [empty]
  account_data := by simp [empty]
  header_data := by simp [empty]
  timestamps := by simp [empty]

namespace Intact

/-- Intact tables have their keys. -/
theorem hasKeys (h : t.Intact) : t.HasKeys := ⟨h.nodup_accounts, h.nodup_headers⟩

/-- A transaction without a header has no lines. -/
theorem linesOf_eq_nil (h : t.Intact) {id : String} (habsent : (t.header? id).isNone = true) :
    t.linesOf id = [] := by
  have hnot : id ∉ t.headers.map Header.id := by
    rw [← header?_isSome_iff]
    simpa using habsent
  rw [linesOf, List.map_eq_nil_iff, List.filter_eq_nil_iff]
  intro row hrow
  have hne : row.transaction ≠ id := fun e => hnot (e ▸ h.header_of_line row hrow)
  simpa using hne

/-- A valid transaction with a new id is added to intact tables. -/
theorem withTransaction (h : t.Intact) {txn : Transaction} (at_ : Timestamp) (hvalid : txn.Valid)
    (habsent : (t.header? txn.id).isNone = true) : (t.withTransaction txn at_).Intact := by
  have hnew : txn.id ∉ t.headers.map Header.id := by
    rw [← header?_isSome_iff]
    simpa using habsent
  have hmissing : ∀ name ∈ t.missing (Line.accounts txn.lines), Text.isBlankText name = false := by
    intro name hname
    obtain ⟨line, hline, rfl⟩ := Line.mem_accounts.mp (mem_missing_iff.mp hname).1
    exact hvalid.accounts_not_blank line hline
  have hkeys := h.hasKeys.withTransaction at_ habsent
  constructor
  case nodup_accounts => exact hkeys.accounts
  case nodup_headers => exact hkeys.headers
  case header_of_line =>
    intro row hrow
    rw [map_id_headers_withTransaction, List.mem_append, List.mem_singleton]
    rcases List.mem_append.mp hrow with hold | hadded
    · exact .inl (h.header_of_line row hold)
    · exact .inr (mem_numbered hadded).1
  case account_of_line =>
    intro row hrow
    rw [map_id_accounts_withTransaction, List.mem_append]
    rcases List.mem_append.mp hrow with hold | hadded
    · exact .inl (h.account_of_line row hold)
    · have hname : row.line.account ∈ Line.accounts txn.lines :=
        Line.mem_accounts.mpr ⟨row.line, (mem_numbered hadded).2.2, rfl⟩
      by_cases hthere : row.line.account ∈ t.accounts.map AccountRow.id
      · exact .inl hthere
      · exact .inr (mem_missing_iff.mpr ⟨hname, hthere⟩)
  case lines_increasing =>
    refine List.pairwise_append.mpr ⟨h.lines_increasing, pairwise_numbered _ _ _, ?_⟩
    intro old hold row hrow
    exact Nat.lt_of_lt_of_le (id_lt_nextLine hold) (mem_numbered hrow).2.1
  case balanced =>
    intro header hheader
    rcases List.mem_append.mp hheader with hold | hadded
    · have hne : header.id ≠ txn.id := fun e => hnew (e ▸ List.mem_map_of_mem hold)
      rw [linesOf_withTransaction_of_ne t at_ hne]
      exact h.balanced header hold
    · obtain rfl := List.mem_singleton.mp hadded
      rw [linesOf_withTransaction_self, h.linesOf_eq_nil habsent, List.nil_append]
      exact hvalid.balanced
  case account_not_blank =>
    intro row hrow
    rcases List.mem_append.mp hrow with hold | hadded
    · exact h.account_not_blank row hold
    · obtain ⟨name, hname, rfl⟩ := List.mem_map.mp hadded
      exact hmissing name hname
  case header_not_blank =>
    intro header hheader
    rcases List.mem_append.mp hheader with hold | hadded
    · exact h.header_not_blank header hold
    · obtain rfl := List.mem_singleton.mp hadded
      exact hvalid.id_not_blank
  case line_not_blank =>
    intro row hrow
    rcases List.mem_append.mp hrow with hold | hadded
    · exact h.line_not_blank row hold
    · exact hvalid.accounts_not_blank row.line (mem_numbered hadded).2.2
  case account_data =>
    intro row hrow
    rcases List.mem_append.mp hrow with hold | hadded
    · exact h.account_data row hold
    · obtain ⟨name, -, rfl⟩ := List.mem_map.mp hadded
      rw [← Data.stored_nil]
      exact Data.isSound_stored (by simp [Json.Fields.keys])
  case header_data =>
    intro header hheader
    rcases List.mem_append.mp hheader with hold | hadded
    · exact h.header_data header hold
    · obtain rfl := List.mem_singleton.mp hadded
      exact Data.isSound_stored hvalid.keys_match
  case timestamps =>
    intro header hheader
    rcases List.mem_append.mp hheader with hold | hadded
    · exact h.timestamps header hold
    · obtain rfl := List.mem_singleton.mp hadded
      exact Timestamp.isCanonical_render at_

/-- A new account is added to intact tables. -/
theorem withAccount (h : t.Intact) {id : String} {data : Data} (hid : Text.isBlankText id = false)
    (hkeys : ∀ key ∈ data.keys, DataKey.Matches key) (habsent : (t.account? id).isNone = true) :
    (t.withAccount id data).Intact := by
  exact { h with
    nodup_accounts := (h.hasKeys.withAccount data habsent).accounts
    account_of_line := by
      intro row hrow
      rw [map_id_withAccount]
      exact List.mem_append_left _ (h.account_of_line row hrow)
    account_not_blank := by
      intro row hrow
      rcases List.mem_append.mp hrow with hold | hadded
      · exact h.account_not_blank row hold
      · obtain rfl := List.mem_singleton.mp hadded
        exact hid
    account_data := by
      intro row hrow
      rcases List.mem_append.mp hrow with hold | hadded
      · exact h.account_data row hold
      · obtain rfl := List.mem_singleton.mp hadded
        exact Data.isSound_stored hkeys }

/-- The data of an account of intact tables are replaced. -/
theorem withAccountData (h : t.Intact) (id : String) {data : Data}
    (hkeys : ∀ key ∈ data.keys, DataKey.Matches key) : (t.withAccountData id data).Intact := by
  have hids := t.map_id_withAccountData id data
  exact { h with
    nodup_accounts := hids ▸ h.nodup_accounts
    account_of_line := fun row hrow => hids ▸ h.account_of_line row hrow
    account_not_blank := by
      intro row hrow
      obtain ⟨old, hold, rfl⟩ := List.mem_map.mp hrow
      split_ifs <;> exact h.account_not_blank old hold
    account_data := by
      intro row hrow
      obtain ⟨old, hold, rfl⟩ := List.mem_map.mp hrow
      split_ifs
      · exact Data.isSound_stored hkeys
      · exact h.account_data old hold }

/-- The data of a transaction of intact tables are replaced. -/
theorem withHeaderData (h : t.Intact) (id : String) {data : Data}
    (hkeys : ∀ key ∈ data.keys, DataKey.Matches key) : (t.withHeaderData id data).Intact := by
  have hids := t.map_id_withHeaderData id data
  exact { h with
    nodup_headers := hids ▸ h.nodup_headers
    header_of_line := fun row hrow => hids ▸ h.header_of_line row hrow
    balanced := by
      intro header hheader
      obtain ⟨old, hold, rfl⟩ := List.mem_map.mp hheader
      split_ifs <;> exact h.balanced old hold
    header_not_blank := by
      intro header hheader
      obtain ⟨old, hold, rfl⟩ := List.mem_map.mp hheader
      split_ifs <;> exact h.header_not_blank old hold
    header_data := by
      intro header hheader
      obtain ⟨old, hold, rfl⟩ := List.mem_map.mp hheader
      split_ifs
      · exact Data.isSound_stored hkeys
      · exact h.header_data old hold
    timestamps := by
      intro header hheader
      obtain ⟨old, hold, rfl⟩ := List.mem_map.mp hheader
      split_ifs <;> exact h.timestamps old hold }

/-- Every edit leaves tables intact. -/
theorem edit (h : t.Intact) {after : Tables} (hedit : t.Edit after) : after.Intact := by
  cases hedit with
  | none => exact h
  | account hid hkeys habsent => exact h.withAccount hid hkeys habsent
  | accountData id hkeys => exact h.withAccountData id hkeys
  | headerData id hkeys => exact h.withHeaderData id hkeys

end Intact

end Tables

namespace Ledger

/-- Every history leaves the tables of a ledger their keys. -/
theorem hasKeys_run {l : Ledger} (h : l.store.tables.HasKeys) (events : List Event) :
    (l.run events).2.store.tables.HasKeys :=
  run_tables_induction (fun _ _ hedit h => h.edit hedit)
    (fun _ _ at_ _ habsent h => h.withTransaction at_ habsent) h events

/-- Every history leaves the tables of a ledger intact. -/
theorem intact_run {l : Ledger} (h : l.store.tables.Intact) (events : List Event) :
    (l.run events).2.store.tables.Intact :=
  run_tables_induction (fun _ _ hedit h => h.edit hedit)
    (fun _ _ at_ hvalid habsent h => h.withTransaction at_ hvalid habsent) h events

/-- The tables of every ledger that can be reached are intact. -/
theorem Reachable.intact {l : Ledger} (h : l.Reachable) : l.store.tables.Intact := by
  obtain ⟨metrics, events, rfl⟩ := h
  exact intact_run Tables.intact_empty events

/-- The tables of a ledger are intact after every history that begins with a new one, whatever
failed in between. -/
theorem intact_of_history (metrics : Option Metrics) (events : List Event) :
    (run ⟨.empty, metrics⟩ events).2.store.tables.Intact :=
  intact_run Tables.intact_empty events

end Ledger

end DoubleEntry
