import DoubleEntry.Proofs.Transaction.Lines
import DoubleEntry.Store.Commit

/-!
# What the commit unit does

The loops of the commit unit are replaced by what they add to each table. The unit is then one case
distinction over the store it starts from: every way in which it fails gives that store back, and
when it succeeds the new rows stand behind the old ones.
-/

namespace DoubleEntry

open Time (Timestamp)

/-- The tables into which a transaction inserts rows. One without lines has a header only. -/
def Transaction.Inserts (t : Transaction) : Table → Prop
  | .transactions => True
  | .accounts | .lines => t.lines ≠ []

namespace Tables

/-- The accounts of a list that have no row. -/
def missing (t : Tables) (names : List String) : List String :=
  names.filter fun name => (t.account? name).isNone

/-- An account without a row is missing. -/
theorem missing_cons_of_isNone {t : Tables} {name : String} (rest : List String)
    (h : (t.account? name).isNone = true) : t.missing (name :: rest) = name :: t.missing rest := by
  simp only [missing, List.filter_cons, h, if_true]

/-- An account with a row is not missing. -/
theorem missing_cons_of_isSome {t : Tables} {name : String} (rest : List String)
    (h : (t.account? name).isSome = true) : t.missing (name :: rest) = t.missing rest := by
  have h' : (t.account? name).isNone = false := by simpa using h
  simp only [missing, List.filter_cons, h', Bool.false_eq_true, if_false]

/-- The rows for lines of a transaction, numbered from `n`. -/
def numbered (transaction : String) (n : Nat) : List Line → List LineRow
  | [] => []
  | line :: rest => ⟨n, transaction, line⟩ :: numbered transaction (n + 1) rest

/-- The tables with rows for new accounts. -/
def withAccounts (t : Tables) (names : List String) : Tables :=
  { t with accounts := t.accounts ++ names.map fun name => ⟨name, AccountRow.emptyData⟩ }

/-- The tables with the lines of a transaction. -/
def withLines (t : Tables) (transaction : String) (lines : List Line) : Tables :=
  { t with lines := t.lines ++ numbered transaction t.nextLine lines }

/-- The tables with a transaction added to them. -/
def withTransaction (t : Tables) (txn : Transaction) (at_ : Timestamp) : Tables where
  accounts := t.accounts ++
    (t.missing (Line.accounts txn.lines)).map fun name => ⟨name, AccountRow.emptyData⟩
  headers := t.headers ++ [⟨txn.id, at_.render, some txn.data.stored⟩]
  lines := t.lines ++ numbered txn.id t.nextLine txn.lines

/-- An account has a row exactly when its id is in the table. -/
theorem account?_isSome_iff {t : Tables} {id : String} :
    (t.account? id).isSome = true ↔ id ∈ t.accounts.map AccountRow.id := by
  simp [account?, List.find?_isSome]

/-- A transaction has a header exactly when its id is in the table. -/
theorem header?_isSome_iff {t : Tables} {id : String} :
    (t.header? id).isSome = true ↔ id ∈ t.headers.map Header.id := by
  simp [header?, List.find?_isSome]

/-- A transaction that is there is none of those that are not. -/
theorem ne_of_isSome_of_isNone {t : Tables} {id other : String}
    (hpresent : (t.header? id).isSome = true) (habsent : (t.header? other).isNone = true) :
    id ≠ other := by
  rintro rfl
  rw [Option.isNone_iff_eq_none.mp habsent] at hpresent
  exact absurd hpresent (by simp)

/-- The number after that of the last line is free. -/
theorem id_lt_nextLine {t : Tables} {row : LineRow} (h : row ∈ t.lines) : row.id < t.nextLine := by
  have hfold : ∀ (rows : List LineRow) (n : Nat),
      n ≤ rows.foldl (fun n r => max n r.id) n ∧
        ∀ r ∈ rows, r.id ≤ rows.foldl (fun n r => max n r.id) n := by
    intro rows
    induction rows with
    | nil => simp
    | cons first rest ih =>
      intro n
      obtain ⟨hstart, hrest⟩ := ih (max n first.id)
      refine ⟨(Nat.le_max_left n first.id).trans hstart, fun r hr => ?_⟩
      rcases List.mem_cons.mp hr with rfl | hr
      · exact (Nat.le_max_right n r.id).trans hstart
      · exact hrest r hr
  exact Nat.lt_succ_of_le ((hfold t.lines 0).2 row h)

end Tables

namespace Store

variable {s : Store} {table : Table}

/-- An open store that takes inserts into a table gives its tables. -/
theorem contentsForInsert_eq_ok (hopen : s.isOpen = true) (htable : table ∉ s.refused) :
    s.contentsForInsert table = .ok s.tables := by
  simp [contentsForInsert, contents, hopen, htable, bind, Except.bind]

/-- An open store that takes no inserts into a table says so. -/
theorem contentsForInsert_eq_error (hopen : s.isOpen = true) (htable : table ∈ s.refused) :
    s.contentsForInsert table = .error (.insertRefused table) := by
  simp [contentsForInsert, contents, hopen, htable, bind, Except.bind]

/-- A closed store gives no tables. -/
theorem contentsForInsert_closed (hclosed : s.isOpen = false) :
    s.contentsForInsert table = .error .closed := by
  simp [contentsForInsert, contents, hclosed, bind, Except.bind]

/-- An account that is there is left as it is. -/
theorem ensureAccount_of_isSome {name : String} (hopen : s.isOpen = true)
    (haccounts : Table.accounts ∉ s.refused) (h : (s.tables.account? name).isSome = true) :
    s.ensureAccount name = .ok s := by
  rw [ensureAccount, contentsForInsert_eq_ok hopen haccounts]
  exact if_pos h

/-- An account that is not there gets a row with an empty data map. -/
theorem ensureAccount_of_isNone {name : String} (hopen : s.isOpen = true)
    (haccounts : Table.accounts ∉ s.refused) (h : (s.tables.account? name).isNone = true) :
    s.ensureAccount name = .ok { s with tables := s.tables.withAccounts [name] } := by
  have h' : ¬ (s.tables.account? name).isSome = true := by simpa using h
  rw [ensureAccount, contentsForInsert_eq_ok hopen haccounts]
  refine (if_neg h').trans ?_
  rw [insertAccountRow, contentsForInsert_eq_ok hopen haccounts]
  exact if_neg h'

/-- A step that fails ends the sequence. -/
theorem bind_of_eq_error {α β ε : Type} {x : Except ε α} {next : α → Except ε β} {fault : ε}
    (h : x = .error fault) : (x >>= next) = .error fault := by
  rw [h]
  rfl

/-- A step that succeeds is followed by the others. -/
theorem bind_of_eq_ok {α β ε : Type} {x : Except ε α} {next : α → Except ε β} {a : α}
    (h : x = .ok a) : (x >>= next) = next a := by
  rw [h]
  rfl

/-- An insert that succeeds is followed by the others. -/
theorem foldlM_cons_of_ok {α : Type} {insert : Store → α → Except StoreFault Store} {next : Store}
    {row : α} {rest : List α} (h : insert s row = .ok next) :
    (row :: rest).foldlM insert s = rest.foldlM insert next := by
  rw [List.foldlM_cons, h]
  rfl

/-- No rows can be inserted one after another when not even the first can. -/
theorem foldlM_eq_error {α : Type} {insert : Store → α → Except StoreFault Store}
    {fault : StoreFault} {rows : List α} (hrows : rows ≠ [])
    (h : ∀ row, insert s row = .error fault) : rows.foldlM insert s = .error fault := by
  cases rows with
  | nil => exact absurd rfl hrows
  | cons row rest =>
    rw [List.foldlM_cons, h row]
    rfl

/-- Ensuring accounts one after another adds rows for those that have none. -/
theorem foldlM_ensureAccount (hopen : s.isOpen = true) (haccounts : Table.accounts ∉ s.refused)
    {names : List String} (hnodup : names.Nodup) :
    names.foldlM ensureAccount s =
      .ok { s with tables := s.tables.withAccounts (s.tables.missing names) } := by
  induction names generalizing s with
  | nil => simp [Tables.withAccounts, Tables.missing]; rfl
  | cons name rest ih =>
    obtain ⟨hname, hrest⟩ := List.nodup_cons.mp hnodup
    cases h : (s.tables.account? name).isNone with
    | true =>
      -- The new row makes a difference for its own id only, which does not come again.
      have hmissing : (s.tables.withAccounts [name]).missing rest = s.tables.missing rest := by
        apply List.filter_congr
        intro other hother
        have hne : name ≠ other := fun e => hname (e ▸ hother)
        simp [Tables.withAccounts, Tables.account?, hne]
      rw [foldlM_cons_of_ok (ensureAccount_of_isNone hopen haccounts h),
        ih (s := { s with tables := s.tables.withAccounts [name] }) hopen haccounts hrest, hmissing,
        Tables.missing_cons_of_isNone rest h]
      simp [Tables.withAccounts]
    | false =>
      have hthere : (s.tables.account? name).isSome = true := by simpa using h
      rw [foldlM_cons_of_ok (ensureAccount_of_isSome hopen haccounts hthere),
        ih hopen haccounts hrest, Tables.missing_cons_of_isSome rest hthere]

/-- Lines added one after another are numbered in order behind those that are there. -/
theorem foldlM_insertLine {transaction : String} (hopen : s.isOpen = true)
    (hlines : Table.lines ∉ s.refused) (lines : List Line) :
    lines.foldlM (insertLine transaction) s =
      .ok { s with tables := s.tables.withLines transaction lines } := by
  induction lines generalizing s with
  | nil => simp [Tables.withLines, Tables.numbered]; rfl
  | cons line rest ih =>
    have hstep : insertLine transaction s line =
        .ok { s with tables := s.tables.withLines transaction [line] } := by
      rw [insertLine, contentsForInsert_eq_ok hopen hlines]
      rfl
    have hnext : (s.tables.withLines transaction [line]).nextLine = s.tables.nextLine + 1 := by
      simp only [Tables.withLines, Tables.numbered, Tables.nextLine, List.foldl_append,
        List.foldl_cons, List.foldl_nil]
      omega
    rw [foldlM_cons_of_ok hstep,
      ih (s := { s with tables := s.tables.withLines transaction [line] }) hopen hlines,
      Tables.withLines, hnext]
    simp [Tables.withLines, Tables.numbered]

/-- A header is added unless its table takes no inserts or its id is taken. -/
theorem insertHeader_eq (hopen : s.isOpen = true) (row : Header) :
    s.insertHeader row =
      if Table.transactions ∈ s.refused then .error (.insertRefused .transactions)
      else if (s.tables.header? row.id).isSome = true then .error (.keyTaken .transactions row.id)
      else .ok { s with tables := { s.tables with headers := s.tables.headers ++ [row] } } := by
  by_cases h : Table.transactions ∈ s.refused
  · rw [insertHeader, contentsForInsert_eq_error hopen h, if_pos h]
    rfl
  · rw [insertHeader, contentsForInsert_eq_ok hopen h, if_neg h]
    rfl

/-- The accounts of a transaction are ensured unless rows are to be added and their table takes
none. -/
theorem foldlM_ensureAccount_accounts (hopen : s.isOpen = true) (lines : List Line) :
    (Line.accounts lines).foldlM ensureAccount s =
      if lines ≠ [] ∧ Table.accounts ∈ s.refused then .error (.insertRefused .accounts)
      else .ok { s with tables :=
        s.tables.withAccounts (s.tables.missing (Line.accounts lines)) } := by
  by_cases hlines : lines = []
  · rw [if_neg fun h => h.1 hlines, hlines]
    simp [Line.accounts, Tables.missing, Tables.withAccounts]
    rfl
  · obtain ⟨line, hline⟩ := List.exists_mem_of_ne_nil lines hlines
    have hnames : Line.accounts lines ≠ [] :=
      List.ne_nil_of_mem (Line.mem_accounts.mpr ⟨line, hline, rfl⟩)
    by_cases haccounts : Table.accounts ∈ s.refused
    · rw [if_pos ⟨hlines, haccounts⟩]
      refine foldlM_eq_error hnames fun name => ?_
      rw [ensureAccount, contentsForInsert_eq_error hopen haccounts]
      rfl
    · rw [if_neg fun h => haccounts h.2]
      exact foldlM_ensureAccount hopen haccounts (Line.nodup_accounts lines)

/-- Lines are added unless there are some and their table takes none. -/
theorem foldlM_insertLine_lines (hopen : s.isOpen = true) (transaction : String)
    (lines : List Line) :
    lines.foldlM (insertLine transaction) s =
      if lines ≠ [] ∧ Table.lines ∈ s.refused then .error (.insertRefused .lines)
      else .ok { s with tables := s.tables.withLines transaction lines } := by
  by_cases hlines : lines = []
  · rw [if_neg fun h => h.1 hlines, hlines]
    simp [Tables.withLines, Tables.numbered]
    rfl
  · by_cases hrefused : Table.lines ∈ s.refused
    · rw [if_pos ⟨hlines, hrefused⟩]
      refine foldlM_eq_error hlines fun line => ?_
      rw [insertLine, contentsForInsert_eq_error hopen hrefused]
      rfl
    · rw [if_neg fun h => hrefused h.2]
      exact foldlM_insertLine hopen hrefused lines

/-- The inserts of a commit unit end with the first that fails. -/
theorem commitInserts_eq (hopen : s.isOpen = true) (t : Transaction) (at_ : Timestamp) :
    s.commitInserts t at_ =
      if t.lines ≠ [] ∧ Table.accounts ∈ s.refused then .error (.insertRefused .accounts)
      else if Table.transactions ∈ s.refused then .error (.insertRefused .transactions)
      else if (s.tables.header? t.id).isSome = true then .error (.keyTaken .transactions t.id)
      else if t.lines ≠ [] ∧ Table.lines ∈ s.refused then .error (.insertRefused .lines)
      else .ok { s with tables := s.tables.withTransaction t at_ } := by
  -- The header goes into a store that has the accounts already, the lines into one with both.
  let row : Header := ⟨t.id, at_.render, some t.data.stored⟩
  let withAccounts : Store :=
    { s with tables := s.tables.withAccounts (s.tables.missing (Line.accounts t.lines)) }
  let withHeader : Store :=
    { s with tables := { withAccounts.tables with headers := s.tables.headers ++ [row] } }
  have hstart := foldlM_ensureAccount_accounts hopen t.lines
  have hinsert := insertHeader_eq (s := withAccounts) hopen row
  have hend := foldlM_insertLine_lines (s := withHeader) hopen t.id t.lines
  unfold commitInserts
  split_ifs with haccounts htransactions hheader hlines
  · exact bind_of_eq_error (hstart.trans (if_pos haccounts))
  all_goals
    refine (bind_of_eq_ok (hstart.trans (if_neg haccounts))).trans ?_
  · exact bind_of_eq_error (hinsert.trans (if_pos htransactions))
  · exact bind_of_eq_error (hinsert.trans ((if_neg htransactions).trans (if_pos hheader)))
  all_goals
    refine (bind_of_eq_ok (hinsert.trans ((if_neg htransactions).trans (if_neg hheader)))).trans ?_
  · exact hend.trans (if_pos hlines)
  · exact hend.trans (if_neg hlines)

/-- What a commit unit answers and leaves behind, in the order in which it may fail. -/
theorem commit_eq (s : Store) (t : Transaction) (at_ : Timestamp) :
    s.commit t at_ =
      if s.isOpen = false then (.error .closed, s)
      else if t.lines ≠ [] ∧ Table.accounts ∈ s.refused then
        (.error (.insertRefused .accounts), s)
      else if Table.transactions ∈ s.refused then (.error (.insertRefused .transactions), s)
      else if (s.tables.header? t.id).isSome = true then (.ok .alreadyExists, s)
      else if t.lines ≠ [] ∧ Table.lines ∈ s.refused then (.error (.insertRefused .lines), s)
      else (.ok .committed, { s with tables := s.tables.withTransaction t at_ }) := by
  unfold commit
  by_cases hopen : s.isOpen = true
  · rw [if_neg (by simpa using hopen), if_neg (by simpa using hopen), commitInserts_eq hopen]
    split_ifs <;> rfl
  · rw [if_pos (by simpa using hopen), if_pos (by simpa using hopen)]

/-- Whether rows of a transaction are refused at the moment. -/
def RefusesRows (s : Store) (t : Transaction) : Prop := ∃ table ∈ s.refused, t.Inserts table

/-- A commit unit fails, or finds its id taken, and gives back the store it started from, or it adds
its transaction. -/
theorem commit_cases (s : Store) (t : Transaction) (at_ : Timestamp) :
    (∃ fault, s.commit t at_ = (.error fault, s)) ∨
      ((s.tables.header? t.id).isSome = true ∧ s.isOpen = true ∧
        s.commit t at_ = (.ok .alreadyExists, s)) ∨
      ((s.tables.header? t.id).isNone = true ∧ s.isOpen = true ∧ ¬ s.RefusesRows t ∧
        s.commit t at_ =
          (.ok .committed, { s with tables := s.tables.withTransaction t at_ })) := by
  rw [commit_eq]
  split_ifs with hopen haccounts htransactions hheader hlines
  · exact .inl ⟨_, rfl⟩
  · exact .inl ⟨_, rfl⟩
  · exact .inl ⟨_, rfl⟩
  · exact .inr (.inl ⟨hheader, by simpa using hopen, rfl⟩)
  · exact .inl ⟨_, rfl⟩
  · refine .inr (.inr ⟨by simpa using hheader, by simpa using hopen, ?_, rfl⟩)
    rintro ⟨table, hrefused, hinserts⟩
    cases table with
    | accounts => exact haccounts ⟨hinserts, hrefused⟩
    | transactions => exact htransactions hrefused
    | lines => exact hlines ⟨hinserts, hrefused⟩

/-- An open store that refuses nothing commits a transaction unless its id is taken. -/
theorem commit_of_refused_eq_nil (t : Transaction) (at_ : Timestamp) (hopen : s.isOpen = true)
    (hrefused : s.refused = []) :
    s.commit t at_ =
      if (s.tables.header? t.id).isSome = true then (.ok .alreadyExists, s)
      else (.ok .committed, { s with tables := s.tables.withTransaction t at_ }) := by
  rw [commit_eq]
  simp [hopen, hrefused]

/-- A transaction with a new id is committed when none of its rows is refused. -/
theorem commit_of_fresh {t : Transaction} (at_ : Timestamp) (hopen : s.isOpen = true)
    (habsent : (s.tables.header? t.id).isNone = true) (hrefused : ¬ s.RefusesRows t) :
    s.commit t at_ = (.ok .committed, { s with tables := s.tables.withTransaction t at_ }) := by
  rw [commit_eq, if_neg (by simpa using hopen),
    if_neg fun h => hrefused ⟨.accounts, h.2, h.1⟩,
    if_neg fun h => hrefused ⟨.transactions, h, trivial⟩, if_neg (by simpa using habsent),
    if_neg fun h => hrefused ⟨.lines, h.2, h.1⟩]

/-- A transaction with a new id is not committed when one of its rows is refused. -/
theorem exists_commit_eq_error {t : Transaction} (at_ : Timestamp)
    (habsent : (s.tables.header? t.id).isNone = true) (hrefused : s.RefusesRows t) :
    ∃ fault, s.commit t at_ = (.error fault, s) := by
  rcases commit_cases s t at_ with herror | ⟨hpresent, -⟩ | ⟨-, -, hnot, -⟩
  · exact herror
  · simp [Option.isNone_iff_eq_none.mp habsent] at hpresent
  · exact absurd hrefused hnot

end Store

/-! ## The rows of a committed transaction -/

namespace Tables

/-- The lines of a transaction are in its rows as they were submitted. -/
theorem map_line_numbered (transaction : String) (n : Nat) (lines : List Line) :
    (numbered transaction n lines).map LineRow.line = lines := by
  induction lines generalizing n with
  | nil => rfl
  | cons line rest ih => rw [numbered, List.map_cons, ih]

/-- Every row of a transaction names it, and is numbered from the first number on. -/
theorem mem_numbered {transaction : String} {n : Nat} {lines : List Line} {row : LineRow}
    (h : row ∈ numbered transaction n lines) :
    row.transaction = transaction ∧ n ≤ row.id ∧ row.line ∈ lines := by
  induction lines generalizing n with
  | nil => simp [numbered] at h
  | cons line rest ih =>
    rcases List.mem_cons.mp h with rfl | h
    · exact ⟨rfl, Nat.le_refl n, List.mem_cons_self⟩
    · obtain ⟨htransaction, hn, hline⟩ := ih h
      exact ⟨htransaction, Nat.le_of_succ_le hn, List.mem_cons_of_mem _ hline⟩

/-- The numbers of the rows of a transaction increase. -/
theorem pairwise_numbered (transaction : String) (n : Nat) (lines : List Line) :
    (numbered transaction n lines).Pairwise fun a b => a.id < b.id := by
  induction lines generalizing n with
  | nil => exact List.Pairwise.nil
  | cons line rest ih =>
    exact List.pairwise_cons.mpr ⟨fun row hrow => (mem_numbered hrow).2.1, ih (n + 1)⟩

/-- The lines of a transaction are found after those that were under its id before. -/
theorem linesOf_withTransaction_self (t : Tables) (txn : Transaction) (at_ : Timestamp) :
    (t.withTransaction txn at_).linesOf txn.id = t.linesOf txn.id ++ txn.lines := by
  have hall : (numbered txn.id t.nextLine txn.lines).filter
      (fun r => decide (r.transaction = txn.id)) = numbered txn.id t.nextLine txn.lines :=
    List.filter_eq_self.mpr fun row hrow => by simpa using (mem_numbered hrow).1
  rw [linesOf, withTransaction, List.filter_append, hall, List.map_append, map_line_numbered,
    linesOf]

/-- A new transaction leaves the lines of all others as they are. -/
theorem linesOf_withTransaction_of_ne (t : Tables) {txn : Transaction} (at_ : Timestamp)
    {id : String} (hne : id ≠ txn.id) : (t.withTransaction txn at_).linesOf id = t.linesOf id := by
  have hnone : (numbered txn.id t.nextLine txn.lines).filter
      (fun r => decide (r.transaction = id)) = [] := by
    apply List.filter_eq_nil_iff.mpr
    intro row hrow
    rw [(mem_numbered hrow).1]
    simpa using hne.symm
  rw [linesOf, withTransaction, List.filter_append, hnone, List.append_nil, linesOf]

/-- A new transaction has a header, and no other transaction gets or loses one. -/
theorem header?_withTransaction_isSome (t : Tables) (txn : Transaction) (at_ : Timestamp)
    (id : String) : ((t.withTransaction txn at_).header? id).isSome = true ↔
      (t.header? id).isSome = true ∨ id = txn.id := by
  rw [header?_isSome_iff, header?_isSome_iff, withTransaction, List.map_append, List.mem_append,
    List.map_singleton, List.mem_singleton]

end Tables

end DoubleEntry
