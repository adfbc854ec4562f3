import DoubleEntry.Proofs.Ledger.AllOrNothing
import DoubleEntry.Proofs.Ledger.Interleaving

/-!
# Accounts created side by side

Creations of accounts look for the account first and insert it later, and between these two steps
others create accounts and commit units add those of their lines. An insert never replaces a row. So
the first to write an account decides its data, one creation at most succeeds under each id, and the
others learn that the account is there, by looking or from the insert itself.
-/

namespace DoubleEntry

/-! ## Accounts that are kept -/

namespace Tables

/-- Whether every account of tables has the same row in later ones. -/
def KeepsAccounts (t later : Tables) : Prop :=
  ∀ id row, t.account? id = some row → later.account? id = some row

/-- Tables keep their accounts when further rows are looked at behind them. -/
theorem KeepsAccounts.of_or {t later : Tables} (more : String → Option AccountRow)
    (h : ∀ id, later.account? id = (t.account? id).or (more id)) : t.KeepsAccounts later := by
  intro id row hrow
  rw [h, hrow, Option.some_or]

end Tables

/-- On an open store that refuses nothing an account is inserted unless its id is taken. -/
theorem Store.insertAccount_of_refused_eq_nil {s : Store} (hopen : s.isOpen = true)
    (hrefused : s.refused = []) (id : String) (data : Data) :
    s.insertAccount id data =
      if (s.tables.account? id).isSome = true then .error (.keyTaken .accounts id)
      else .ok { s with tables := s.tables.withAccount id data } := by
  have haccounts : Table.accounts ∉ s.refused := by simp [hrefused]
  exact bind_of_eq_ok (contentsForInsert_eq_ok hopen haccounts)

/-! ## What a creation knows -/

/-- An account that is to be created. -/
structure NewAccount where
  id : String
  data : Data

namespace NewAccount

/-- What an account to be created has to be: it has an id, and all keys of its data are valid. -/
structure Valid (a : NewAccount) : Prop where
  id_not_blank : Text.isBlankText a.id = false
  keys_match : ∀ key ∈ a.data.keys, DataKey.Matches key

/-- The row of the account. -/
def row (a : NewAccount) : AccountRow := ⟨a.id, a.data.stored⟩

/-- The answer to a creation that finds the account there. -/
def conflict (a : NewAccount) : Except LedgerFault Unit := .error (.conflict (.account a.id))

end NewAccount

namespace Creation

/-- How a creation begins: a request with a fault is at its end. -/
def begin (id : String) (data : Data) : Creation :=
  match check id data with
  | .error fault => finished (.error (.input fault))
  | .ok () => arrived

/-- The creation of a valid account begins with its first step. -/
theorem begin_of_valid {a : NewAccount} (h : a.Valid) : begin a.id a.data = arrived := by
  rw [begin, check, if_neg (by simp [h.id_not_blank]), (DataKey.check_eq_ok_iff _).mpr h.keys_match]

/-- Whether a creation is at its end and succeeded. -/
def isDone : Creation → Bool
  | finished (.ok ()) => true
  | _ => false

/-- A creation has succeeded exactly when it is at its end with this answer. -/
theorem isDone_iff {phase : Creation} : phase.isDone = true ↔ phase = finished (.ok ()) := by
  cases phase with
  | arrived | absent => simp [isDone]
  | finished answer => cases answer <;> simp [isDone]

/-- Whether what a creation found out is true of tables. That an account is not there may change at
any time, so a creation that saw this claims nothing. -/
def Agrees (tables : Tables) (a : NewAccount) : Creation → Prop
  | arrived | absent => True
  | finished answer => ∃ row, tables.account? a.id = some row ∧
      (answer = .ok () ∧ row = a.row ∨ answer = a.conflict)

/-- What a creation found out stays true while accounts are kept. -/
theorem Agrees.mono {tables later : Tables} {a : NewAccount} {phase : Creation}
    (h : phase.Agrees tables a) (hkeeps : tables.KeepsAccounts later) : phase.Agrees later a := by
  cases phase with
  | arrived | absent => trivial
  | finished answer =>
    obtain ⟨row, hrow, hanswer⟩ := h
    exact ⟨row, hkeeps _ _ hrow, hanswer⟩

/-- On an open store that refuses nothing a step either leaves the store as it is, or inserts an
account that was not there. -/
theorem step_cases {a : NewAccount} {s : Store} {phase : Creation} (hopen : s.isOpen = true)
    (hrefused : s.refused = []) (h : phase.Agrees s.tables a) :
    ((step a.id a.data s phase).2 = s ∧ (step a.id a.data s phase).1.isDone = phase.isDone ∧
      (step a.id a.data s phase).1.Agrees s.tables a) ∨
    (phase.isDone = false ∧ s.tables.account? a.id = none ∧
      (step a.id a.data s phase).1 = finished (.ok ()) ∧
      (step a.id a.data s phase).2 = { s with tables := s.tables.withAccount a.id a.data }) := by
  cases phase with
  | arrived =>
    left
    have hexists : s.accountExists a.id = .ok (s.tables.account? a.id).isSome := by
      rw [Store.accountExists, Store.contents, if_pos hopen]
      rfl
    cases hrow : s.tables.account? a.id with
    | none =>
      simp only [step, hexists, hrow, Option.isSome_none]
      exact ⟨trivial, rfl, trivial⟩
    | some row =>
      simp only [step, hexists, hrow, Option.isSome_some]
      exact ⟨trivial, rfl, row, hrow, .inr rfl⟩
  | absent =>
    -- The account may have been added since the creation saw that it was not there.
    have hinsert := s.insertAccount_of_refused_eq_nil hopen hrefused a.id a.data
    cases hrow : s.tables.account? a.id with
    | none =>
      right
      rw [hrow, Option.isSome_none, if_neg Bool.false_ne_true] at hinsert
      simp only [step, hinsert]
      exact ⟨rfl, trivial, trivial, trivial⟩
    | some row =>
      left
      rw [hrow, Option.isSome_some, if_pos rfl] at hinsert
      simp only [step, hinsert, insertFault]
      exact ⟨trivial, rfl, row, hrow, .inr rfl⟩
  | finished answer => exact .inl ⟨rfl, rfl, h⟩

end Creation

/-- Creating an account is one creation alone, from its begin to its end. -/
theorem Ledger.createAccount_eq (l : Ledger) (id : String) (data : Data) :
    l.createAccount id data =
      ((Creation.settle id data (Creation.begin id data) l.store).1,
        { l with store := (Creation.settle id data (Creation.begin id data) l.store).2 }) := by
  unfold createAccount Creation.begin
  cases Creation.check id data with
  | error fault => simp only [Creation.settle]
  | ok _ => rfl

/-! ## Creations among commits -/

/-- Creations of accounts under way on one store. -/
structure Contest where
  store : Store
  /-- Every creation with how far it has come. -/
  calls : List (NewAccount × Creation)
  /-- The transactions that were committed meanwhile, in order. -/
  units : List Transaction

namespace Contest

/-- What happens next on the store. -/
inductive Move where
  /-- The creation at a position takes its next step. -/
  | step (i : Nat)
  /-- A commit unit runs. -/
  | commit (t : Transaction) (at_ : Time.Timestamp)

/-- Whether a move is a step of the creation at a position. -/
def Move.isStepOf (i : Nat) : Move → Bool
  | step j => j == i
  | commit _ _ => false

/-- Creations that have all just begun. -/
def start (s : Store) (accounts : List NewAccount) : Contest :=
  ⟨s, accounts.map fun a => (a, Creation.begin a.id a.data), []⟩

/-- The next thing that happens. -/
def advance (σ : Contest) : Move → Contest
  | .step i =>
    match σ.calls[i]? with
    | none => σ
    | some (a, phase) =>
      let next := Creation.step a.id a.data σ.store phase
      { σ with store := next.2, calls := σ.calls.set i (a, next.1) }
  | .commit t at_ =>
    let next := σ.store.commit t at_
    { σ with
      store := next.2
      units := if next.1 = .ok .committed then σ.units ++ [t] else σ.units }

/-- The moves of a schedule happen one after another. -/
def run (σ : Contest) (schedule : List Move) : Contest := schedule.foldl advance σ

/-- How many creations succeeded under an id. -/
def winners (σ : Contest) (id : String) : Nat :=
  σ.calls.countP fun c => c.2.isDone && c.1.id = id

/-- A contest that had one winner at most under each id and replaced no row. -/
structure Settled (s : Store) (accounts : List NewAccount) (σ : Contest) : Prop where
  /-- The creations are those that began. -/
  accounts_eq : σ.calls.map Prod.fst = accounts
  /-- A completed creation succeeded or found the account there. -/
  answers : ∀ a answer, (a, Creation.finished answer) ∈ σ.calls →
    answer = .ok () ∨ answer = a.conflict
  /-- One creation at most succeeds under each id. -/
  one_winner : ∀ id, σ.winners id ≤ 1
  /-- None does when the account was there before. -/
  no_winner : ∀ id, (s.tables.account? id).isSome = true → σ.winners id = 0
  /-- The account of the winner has its data. -/
  row_of_winner : ∀ a, (a, Creation.finished (.ok ())) ∈ σ.calls →
    σ.store.tables.account? a.id = some a.row
  /-- When creations are completed and none of them won, the account was there before, or a commit
  unit added it with empty data. -/
  row_without_winner : ∀ a answer, (a, Creation.finished answer) ∈ σ.calls → σ.winners a.id = 0 →
    (s.tables.account? a.id).isSome = true ∨
      (σ.store.tables.account? a.id = some ⟨a.id, AccountRow.emptyData⟩ ∧
        ∃ t ∈ σ.units, a.id ∈ Line.accounts t.lines)
  /-- An account that was there before keeps its data. -/
  kept : s.tables.KeepsAccounts σ.store.tables

/-- What holds of a contest after every move. -/
structure Consistent (s : Store) (accounts : List NewAccount) (σ : Contest) : Prop where
  isOpen : σ.store.isOpen = true
  refused : σ.store.refused = []
  accounts_eq : σ.calls.map Prod.fst = accounts
  agrees : ∀ c ∈ σ.calls, c.2.Agrees σ.store.tables c.1
  kept : s.tables.KeepsAccounts σ.store.tables
  winners_le : ∀ id, σ.winners id ≤ if (s.tables.account? id).isSome = true then 0 else 1
  origin : ∀ id row, σ.store.tables.account? id = some row →
    (s.tables.account? id).isSome = true ∨ σ.winners id ≠ 0 ∨
      (row = ⟨id, AccountRow.emptyData⟩ ∧ ∃ t ∈ σ.units, id ∈ Line.accounts t.lines)

/-- A creation that succeeds is one more winner under its id. -/
theorem winners_of_split {σ τ : Contest} {front back : List (NewAccount × Creation)}
    {a : NewAccount} {phase next : Creation} (hbefore : σ.calls = front ++ (a, phase) :: back)
    (hafter : τ.calls = front ++ (a, next) :: back) (hnot : phase.isDone = false)
    (hdone : next.isDone = true) (id : String) :
    τ.winners id = σ.winners id + if a.id = id then 1 else 0 := by
  simp only [winners, hbefore, hafter, List.countP_append, List.countP_cons, hnot, hdone,
    Bool.false_and, Bool.true_and, decide_eq_true_eq, Bool.false_eq_true, if_false]
  omega

namespace Consistent

variable {s : Store} {accounts : List NewAccount} {σ : Contest}

/-- Creations that have just begun are consistent. -/
theorem start (hopen : s.isOpen = true) (hrefused : s.refused = [])
    (hvalid : ∀ a ∈ accounts, a.Valid) : Consistent s accounts (Contest.start s accounts) := by
  have hbegin : ∀ a ∈ accounts, Creation.begin a.id a.data = .arrived :=
    fun a ha => Creation.begin_of_valid (hvalid a ha)
  have hwinners : ∀ id, (Contest.start s accounts).winners id = 0 := by
    intro id
    rw [winners, Contest.start, List.countP_map, List.countP_eq_zero]
    intro a ha
    simp [hbegin a ha, Creation.isDone]
  exact
    { isOpen := hopen
      refused := hrefused
      accounts_eq := by simp [Contest.start, Function.comp_def]
      agrees := by
        intro c hc
        obtain ⟨a, ha, rfl⟩ := List.mem_map.mp hc
        rw [hbegin a ha]
        trivial
      kept := fun _ _ h => h
      winners_le := fun id => by rw [hwinners]; exact Nat.zero_le _
      origin := fun id row hrow => .inl (Option.isSome_iff_exists.mpr ⟨row, hrow⟩) }

/-- There is a row under the id of a creation that has won. -/
theorem exists_row_of_winners (h : Consistent s accounts σ) {id : String}
    (hwinners : σ.winners id ≠ 0) : ∃ row, σ.store.tables.account? id = some row := by
  obtain ⟨⟨a, phase⟩, hc, hwon⟩ := List.countP_pos_iff.mp (Nat.pos_of_ne_zero hwinners)
  obtain ⟨hdone, hid⟩ := Bool.and_eq_true_iff.mp hwon
  obtain rfl : phase = .finished (.ok ()) := Creation.isDone_iff.mp hdone
  obtain rfl : a.id = id := of_decide_eq_true hid
  obtain ⟨row, hrow, -⟩ := h.agrees _ hc
  exact ⟨row, hrow⟩

/-- A step that leaves the store as it is leaves a contest consistent. -/
theorem of_store_eq (h : Consistent s accounts σ) {front back : List (NewAccount × Creation)}
    {a : NewAccount} {phase next : Creation} (hsplit : σ.calls = front ++ (a, phase) :: back)
    (hdone : next.isDone = phase.isDone) (hagrees : next.Agrees σ.store.tables a) :
    Consistent s accounts { σ with calls := front ++ (a, next) :: back } := by
  have hwinners : ∀ id, winners { σ with calls := front ++ (a, next) :: back } id = σ.winners id := by
    intro id
    simp only [winners, hsplit, List.countP_append, List.countP_cons, hdone]
  exact
    { isOpen := h.isOpen
      refused := h.refused
      accounts_eq := by
        rw [← h.accounts_eq, hsplit]
        simp
      agrees := System.forall_mem_replaced (hsplit ▸ h.agrees) (fun _ hc => hc) hagrees
      kept := h.kept
      winners_le := fun id => by rw [hwinners]; exact h.winners_le id
      origin := fun id row hrow => by rw [hwinners]; exact h.origin id row hrow }

/-- An account that is not there was not there at the start, and nobody has won it. -/
theorem of_absent (h : Consistent s accounts σ) {id : String}
    (habsent : σ.store.tables.account? id = none) :
    (s.tables.account? id).isSome = false ∧ σ.winners id = 0 := by
  constructor
  · cases hrow : s.tables.account? id with
    | none => rfl
    | some row => exact absurd ((h.kept _ _ hrow).symm.trans habsent) (by simp)
  · by_contra hwon
    obtain ⟨row, hrow⟩ := h.exists_row_of_winners hwon
    exact absurd (hrow.symm.trans habsent) (by simp)

/-- A step that inserts an account leaves a contest consistent. -/
theorem of_insert (h : Consistent s accounts σ) {front back : List (NewAccount × Creation)}
    {a : NewAccount} {phase : Creation} (hsplit : σ.calls = front ++ (a, phase) :: back)
    (hnot : phase.isDone = false) (habsent : σ.store.tables.account? a.id = none) :
    Consistent s accounts
      { σ with
        store := { σ.store with tables := σ.store.tables.withAccount a.id a.data }
        calls := front ++ (a, .finished (.ok ())) :: back } := by
  have hkeeps : σ.store.tables.KeepsAccounts (σ.store.tables.withAccount a.id a.data) :=
    .of_or _ (σ.store.tables.account?_withAccount a.id a.data)
  have hself : (σ.store.tables.withAccount a.id a.data).account? a.id = some a.row := by
    rw [Tables.account?_withAccount, habsent, if_pos rfl]
    rfl
  -- Nobody has won under this id before, and it was free at the start.
  obtain ⟨hfree, hfirst⟩ := h.of_absent habsent
  exact
    { isOpen := h.isOpen
      refused := h.refused
      accounts_eq := by
        rw [← h.accounts_eq, hsplit]
        simp
      agrees := System.forall_mem_replaced (hsplit ▸ h.agrees) (fun _ hc => hc.mono hkeeps)
        ⟨_, hself, .inl ⟨rfl, rfl⟩⟩
      kept := fun id row hrow => hkeeps id row (h.kept id row hrow)
      winners_le := by
        intro id
        rw [winners_of_split hsplit rfl hnot rfl]
        by_cases hid : a.id = id
        · subst hid
          rw [if_pos rfl, hfirst, hfree]
          exact le_rfl
        · rw [if_neg hid]
          exact h.winners_le id
      origin := by
        intro id row hrow
        rw [winners_of_split hsplit rfl hnot rfl]
        by_cases hid : a.id = id
        · exact .inr (.inl (by rw [if_pos hid]; omega))
        · rw [Tables.account?_withAccount, if_neg hid, Option.or_none] at hrow
          rw [if_neg hid]
          exact h.origin id row hrow }

/-- A commit unit that adds its transaction leaves a contest consistent. -/
theorem of_commit (h : Consistent s accounts σ) (t : Transaction) (at_ : Time.Timestamp) :
    Consistent s accounts
      { σ with
        store := { σ.store with tables := σ.store.tables.withTransaction t at_ }
        units := σ.units ++ [t] } := by
  have hkeeps : σ.store.tables.KeepsAccounts (σ.store.tables.withTransaction t at_) :=
    .of_or _ (σ.store.tables.account?_withTransaction t at_)
  exact
    { isOpen := h.isOpen
      refused := h.refused
      accounts_eq := h.accounts_eq
      agrees := fun c hc => (h.agrees c hc).mono hkeeps
      kept := fun id row hrow => hkeeps id row (h.kept id row hrow)
      winners_le := h.winners_le
      origin := by
        intro id row hrow
        rw [Tables.account?_withTransaction, Option.or_eq_some_iff] at hrow
        rcases hrow with hrow | ⟨-, hrow⟩
        · refine (h.origin id row hrow).imp_right (Or.imp_right ?_)
          rintro ⟨hempty, u, hu, hid⟩
          exact ⟨hempty, u, List.mem_append_left _ hu, hid⟩
        · split_ifs at hrow with hid
          exact .inr (.inr ⟨(Option.some.inj hrow).symm, t,
            List.mem_append_right _ (List.mem_singleton_self t), hid⟩) }

/-- Every move leaves a contest consistent. -/
theorem advance (h : Consistent s accounts σ) (m : Move) : Consistent s accounts (σ.advance m) := by
  cases m with
  | step i =>
    cases hcall : σ.calls[i]? with
    | none =>
      simp only [Contest.advance, hcall]
      exact h
    | some call =>
      obtain ⟨a, phase⟩ := call
      obtain ⟨front, back, hsplit, hset⟩ := System.exists_eq_append hcall
      have hmem : (a, phase) ∈ σ.calls := by simp [hsplit]
      simp only [Contest.advance, hcall, hset]
      -- The store stays as it is, or this creation is the first to write the account.
      rcases Creation.step_cases h.isOpen h.refused (h.agrees _ hmem) with
        ⟨hstore, hdone, hagrees⟩ | ⟨hnot, habsent, hfinished, hstore⟩
      · rw [hstore]
        exact h.of_store_eq hsplit hdone hagrees
      · rw [hfinished, hstore]
        exact h.of_insert hsplit hnot habsent
  | commit t at_ =>
    have hcommit := σ.store.commit_of_refused_eq_nil t at_ h.isOpen h.refused
    by_cases hpresent : (σ.store.tables.header? t.id).isSome = true
    · rw [if_pos hpresent] at hcommit
      simp only [Contest.advance, hcommit, Except.ok.injEq, reduceCtorEq, if_false]
      exact h
    · rw [if_neg hpresent] at hcommit
      simp only [Contest.advance, hcommit, if_true]
      exact h.of_commit t at_

/-- Every schedule leaves a contest consistent. -/
theorem run (h : Consistent s accounts σ) (schedule : List Move) :
    Consistent s accounts (σ.run schedule) := by
  induction schedule generalizing σ with
  | nil => exact h
  | cons m rest ih => exact ih (h.advance m)

/-- A consistent contest is settled. -/
theorem settled (h : Consistent s accounts σ) : Settled s accounts σ where
  accounts_eq := h.accounts_eq
  answers := by
    intro a answer ha
    obtain ⟨row, -, hanswer⟩ := h.agrees _ ha
    exact hanswer.imp_left And.left
  one_winner := fun id => (h.winners_le id).trans (by split_ifs <;> omega)
  no_winner := by
    intro id hpresent
    have hle := h.winners_le id
    rw [if_pos hpresent] at hle
    exact Nat.le_zero.mp hle
  row_of_winner := by
    intro a ha
    obtain ⟨row, hrow, ⟨-, rfl⟩ | hconflict⟩ := h.agrees _ ha
    · exact hrow
    · exact absurd hconflict (by simp [NewAccount.conflict])
  row_without_winner := by
    intro a answer ha hnone
    obtain ⟨row, hrow, -⟩ := h.agrees _ ha
    rcases h.origin _ _ hrow with hstart | hwon | ⟨rfl, hunit⟩
    · exact .inl hstart
    · exact absurd hnone hwon
    · exact .inr ⟨hrow, hunit⟩
  kept := h.kept

end Consistent

/-! ## Progress -/

/-- How many steps the creation at a position may still take. -/
def remainingAt (σ : Contest) (i : Nat) : Nat :=
  match σ.calls[i]? with
  | none => 0
  | some c => c.2.remaining

/-- A step of a creation brings it closer to its end. -/
theorem remainingAt_advance_self (σ : Contest) (i : Nat) :
    (σ.advance (.step i)).remainingAt i ≤ σ.remainingAt i - 1 := by
  cases hcall : σ.calls[i]? with
  | none => simp [advance, remainingAt, hcall]
  | some call =>
    obtain ⟨a, phase⟩ := call
    obtain ⟨hi, -⟩ := List.getElem?_eq_some_iff.mp hcall
    have hstep := Creation.remaining_step_lt a.id a.data σ.store phase
    simp only [advance, remainingAt, hcall, List.getElem?_set_self hi]
    by_cases hzero : phase.remaining = 0
    · cases phase with
      | finished answer => exact Nat.zero_le _
      | arrived | absent => simp [Creation.remaining] at hzero
    · have := hstep hzero
      omega

/-- Any other move leaves a creation where it is. -/
theorem remainingAt_advance_of_ne (σ : Contest) {i : Nat} {m : Move}
    (hm : m.isStepOf i = false) : (σ.advance m).remainingAt i = σ.remainingAt i := by
  cases m with
  | commit t at_ => rfl
  | step j =>
    have hne : j ≠ i := by simpa [Move.isStepOf] using hm
    cases hcall : σ.calls[j]? with
    | none => simp only [advance, hcall]
    | some call => simp only [advance, remainingAt, hcall, List.getElem?_set_ne hne]

/-- A schedule brings a creation as many steps closer to its end as it gives to it. -/
theorem remainingAt_run (σ : Contest) (schedule : List Move) (i : Nat) :
    (σ.run schedule).remainingAt i ≤ σ.remainingAt i - schedule.countP (Move.isStepOf i) := by
  have hown : ∀ (σ : Contest) m, Move.isStepOf i m = true →
      (σ.advance m).remainingAt i ≤ σ.remainingAt i - 1 := by
    intro σ m hm
    cases m with
    | commit t at_ => exact absurd hm (by simp [Move.isStepOf])
    | step j =>
      obtain rfl : j = i := by simpa [Move.isStepOf] using hm
      exact σ.remainingAt_advance_self j
  exact remaining_foldl_le advance (fun σ => σ.remainingAt i) (Move.isStepOf i) hown
    (fun σ _ => σ.remainingAt_advance_of_ne) σ schedule

/-- A creation with no steps left is completed. -/
theorem exists_finished {σ : Contest} {i : Nat} (hi : i < σ.calls.length)
    (h : σ.remainingAt i = 0) : ∃ a answer, σ.calls[i]? = some (a, .finished answer) := by
  rw [remainingAt] at h
  cases hcall : σ.calls[i]? with
  | none => exact absurd hi (by simpa using hcall)
  | some call =>
    obtain ⟨a, phase⟩ := call
    rw [hcall] at h
    cases phase with
    | finished answer => exact ⟨a, answer, rfl⟩
    | arrived | absent => simp [Creation.remaining] at h

/-- The transactions that were committed are those of commit units of the schedule. -/
theorem exists_commit_of_mem_units {σ : Contest} {schedule : List Move} {t : Transaction}
    (h : t ∈ (σ.run schedule).units) : t ∈ σ.units ∨ ∃ at_, Move.commit t at_ ∈ schedule := by
  induction schedule generalizing σ with
  | nil => exact .inl h
  | cons m rest ih =>
    rcases ih (σ := σ.advance m) h with hmem | ⟨at_, hcommit⟩
    · cases m with
      | step i =>
        left
        cases hcall : σ.calls[i]? <;> simpa [advance, hcall] using hmem
      | commit u at_ =>
        simp only [advance] at hmem
        split_ifs at hmem
        · rcases List.mem_append.mp hmem with hmem | hmem
          · exact .inl hmem
          · rw [List.mem_singleton.mp hmem]
            exact .inr ⟨at_, List.mem_cons_self⟩
        · exact .inl hmem
    · exact .inr ⟨at_, List.mem_cons_of_mem _ hcommit⟩

/-- Valid accounts whose creations begin on an open store that refuses nothing are created in any
order of steps, and of commit units between them, with one winner at most under each id and without
any row replaced. Every creation that is given two steps is completed. -/
theorem settled_run {s : Store} (hopen : s.isOpen = true) (hrefused : s.refused = [])
    {accounts : List NewAccount} (hvalid : ∀ a ∈ accounts, a.Valid) (schedule : List Move) :
    Settled s accounts ((start s accounts).run schedule) ∧
      (∀ t ∈ ((start s accounts).run schedule).units, ∃ at_, Move.commit t at_ ∈ schedule) ∧
      ∀ i < accounts.length, 2 ≤ schedule.countP (Move.isStepOf i) →
        ∃ a answer, ((start s accounts).run schedule).calls[i]? = some (a, .finished answer) := by
  have hconsistent := (Consistent.start hopen hrefused hvalid).run schedule
  refine ⟨hconsistent.settled, fun t ht => ?_, fun i hi hsteps => ?_⟩
  · exact (exists_commit_of_mem_units ht).resolve_left List.not_mem_nil
  have hlength : i < ((start s accounts).run schedule).calls.length := by
    rw [← List.length_map (f := Prod.fst), hconsistent.accounts_eq]
    exact hi
  refine exists_finished hlength ?_
  have hstart : (start s accounts).remainingAt i = 2 := by
    have hbegin := Creation.begin_of_valid (hvalid _ (List.getElem_mem hi))
    simp [remainingAt, start, List.getElem?_map, List.getElem?_eq_getElem hi, hbegin,
      Creation.remaining]
  have hrun := (start s accounts).remainingAt_run schedule i
  omega

/-- Two accounts under one id, and another one. -/
def contenders : List NewAccount :=
  [⟨"a", [("first", .bool true)]⟩, ⟨"a", [("second", .bool true)]⟩, ⟨"b", [("third", .bool true)]⟩]

/-- All look before anything is written. The second account wins over the first, and a commit unit
adds the third. -/
def race (at_ : Time.Timestamp) : List Move :=
  [.step 0, .step 1, .step 2, .step 1, .step 0,
    .commit ⟨"t", none, [], [⟨"b", 5⟩, ⟨"c", -5⟩]⟩ at_, .step 2]

/-- The second contender has won its account, and nobody the one that the commit unit added. -/
theorem settled_run_contenders :
    ∃ at_, Time.Timestamp.of? 2000 1 1 0 0 0 0 = some at_ ∧
      (∀ a ∈ contenders, a.Valid) ∧
      Settled .empty contenders ((start .empty contenders).run (race at_)) ∧
      ((start .empty contenders).run (race at_)).store.tables.account? "a" =
        some (NewAccount.mk "a" [("second", .bool true)]).row ∧
      ((start .empty contenders).run (race at_)).store.tables.account? "b" =
        some ⟨"b", AccountRow.emptyData⟩ := by
  obtain ⟨at_, hat⟩ : ∃ at_, Time.Timestamp.of? 2000 1 1 0 0 0 0 = some at_ := ⟨_, rfl⟩
  have hvalid : ∀ a ∈ contenders, a.Valid := by
    have hkeys : ∀ a ∈ contenders, DataKey.check a.data = .ok () := by
      simp only [contenders, List.forall_mem_cons]
      exact ⟨rfl, rfl, rfl, fun _ hnone => absurd hnone List.not_mem_nil⟩
    have hids : ∀ a ∈ contenders, Text.isBlankText a.id = false := by
      simp only [contenders, List.forall_mem_cons]
      exact ⟨by decide, by decide, by decide, fun _ hnone => absurd hnone List.not_mem_nil⟩
    exact fun a ha => ⟨hids a ha, (DataKey.check_eq_ok_iff _).mp (hkeys a ha)⟩
  obtain ⟨hsettled, -, -⟩ := settled_run (s := .empty) rfl rfl hvalid (race at_)
  have hcalls : ((start .empty contenders).run (race at_)).calls =
      [(⟨"a", [("first", .bool true)]⟩, .finished (.error (.conflict (.account "a")))),
        (⟨"a", [("second", .bool true)]⟩, .finished (.ok ())),
        (⟨"b", [("third", .bool true)]⟩, .finished (.error (.conflict (.account "b"))))] := rfl
  refine ⟨at_, hat, hvalid, hsettled, hsettled.row_of_winner ⟨"a", _⟩ ?_, ?_⟩
  · rw [hcalls]
    simp
  · have hcompleted : (⟨"b", [("third", .bool true)]⟩,
        Creation.finished (.error (.conflict (.account "b")))) ∈
          ((start .empty contenders).run (race at_)).calls := by
      rw [hcalls]
      simp
    have hnone : ((start .empty contenders).run (race at_)).winners "b" = 0 := by
      rw [winners, hcalls]
      rfl
    rcases hsettled.row_without_winner _ _ hcompleted hnone with hstart | ⟨hrow, -⟩
    · exact absurd hstart (by decide)
    · exact hrow

end Contest

end DoubleEntry
