import DoubleEntry.Proofs.Ledger.Serial

/-!
# Submissions side by side

Submissions of several callers take their steps in any order. Two of them may both find that an id
is new, and both go on to commit it. The commit unit lets one of them through, the other finds the
lines of the first and is compared with them. The order in which the units succeed is a serial order
that explains the tables and all answers.
-/

namespace DoubleEntry

/-! ## What a submission knows -/

namespace Submission

/-- Whether a submission is at its end and created its transaction. -/
def isCreated : Submission → Bool
  | finished (.ok .created) => true
  | _ => false

/-- Whether what a submission found out is true of tables. A header that was found stays, so a known
id is known for good; that an id is new may change at any time, so a fresh one claims nothing. -/
def Agrees (tables : Tables) (t : Transaction) : Submission → Prop
  | arrived | fresh => True
  | known => (tables.header? t.id).isSome = true
  | finished answer => (tables.header? t.id).isSome = true ∧
      (answer = .ok .created ∨ answer = .ok (verdict (tables.linesOf t.id) t.lines))

/-- What a submission found out stays true when another one is created. -/
theorem Agrees.withTransaction {tables : Tables} {t : Transaction} {phase : Submission}
    (h : phase.Agrees tables t) {other : Transaction} (at_ : Time.Timestamp)
    (habsent : (tables.header? other.id).isNone = true) :
    phase.Agrees (tables.withTransaction other at_) t := by
  have hpresent : (tables.header? t.id).isSome = true →
      ((tables.withTransaction other at_).header? t.id).isSome = true := fun hsome =>
    (tables.header?_withTransaction_isSome other at_ t.id).mpr (.inl hsome)
  cases phase with
  | arrived => trivial
  | fresh => trivial
  | known => exact hpresent h
  | finished answer =>
    obtain ⟨hsome, hanswer⟩ := h
    have hne := Tables.ne_of_isSome_of_isNone hsome habsent
    refine ⟨hpresent hsome, ?_⟩
    rwa [tables.linesOf_withTransaction_of_ne at_ hne]

/-- On an open store that refuses nothing a step either leaves the store as it is, or commits a
transaction that was not there. -/
theorem step_cases (clock : Clock) {t : Transaction} {l : Ledger} {phase : Submission}
    (hopen : l.store.isOpen = true) (hrefused : l.store.refused = [])
    (h : phase.Agrees l.store.tables t) :
    ((step clock t l phase).2.store = l.store ∧
      (step clock t l phase).1.isCreated = phase.isCreated ∧
      (step clock t l phase).1.Agrees l.store.tables t) ∨
    (phase.isCreated = false ∧ (l.store.tables.header? t.id).isNone = true ∧
      (step clock t l phase).1 = finished (.ok .created) ∧
      (step clock t l phase).2.store = { l.store with
        tables := l.store.tables.withTransaction t (t.timestamp.getD clock.now) }) := by
  cases phase with
  | arrived =>
    left
    have hexists := l.store.transactionExists_eq hopen t.id
    cases hsome : (l.store.tables.header? t.id).isSome <;>
      simp [step, hexists, hsome, isCreated, Agrees]
  | known =>
    left
    have hlines := l.store.linesOf_eq hopen t.id
    have hnot := verdict_ne_created (l.store.tables.linesOf t.id) t.lines
    have hcreated : (finished (.ok (verdict (l.store.tables.linesOf t.id) t.lines))).isCreated =
        false := by
      cases hverdict : verdict (l.store.tables.linesOf t.id) t.lines with
      | created => exact absurd hverdict hnot
      | duplicate => rfl
      | conflict => rfl
    simp only [step, hlines, finish]
    exact ⟨rfl, hcreated, h, .inr rfl⟩
  | fresh =>
    -- The id may have been taken since the submission found that it was new.
    have hcommit := l.store.commit_of_refused_eq_nil t (t.timestamp.getD clock.now) hopen hrefused
    split_ifs at hcommit with hpresent
    · left
      simp only [step, hcommit]
      exact ⟨rfl, rfl, hpresent⟩
    · right
      simp only [step, hcommit, finish]
      exact ⟨rfl, by simpa using hpresent, trivial, rfl⟩
  | finished answer => exact .inl ⟨rfl, rfl, h⟩

end Submission

/-! ## Systems of calls -/

/-- Moves of its own bring a party closer to its end, others leave it where it is. -/
theorem remaining_foldl_le {α μ : Type} (advance : α → μ → α) (remaining : α → Nat)
    (isOwn : μ → Bool) (hown : ∀ σ m, isOwn m = true → remaining (advance σ m) ≤ remaining σ - 1)
    (hother : ∀ σ m, isOwn m = false → remaining (advance σ m) = remaining σ) (σ : α)
    (moves : List μ) :
    remaining (moves.foldl advance σ) ≤ remaining σ - moves.countP isOwn := by
  induction moves generalizing σ with
  | nil => exact Nat.le_refl _
  | cons m rest ih =>
    have hrest := ih (advance σ m)
    rw [List.foldl_cons]
    cases hm : isOwn m with
    | true =>
      have hstep := hown σ m hm
      rw [List.countP_cons_of_pos hm]
      omega
    | false =>
      have hstep := hother σ m hm
      rw [List.countP_cons_of_neg (by simp [hm])]
      omega

/-- Calls under way on one ledger. -/
structure System where
  ledger : Ledger
  /-- Every call with how far it has come. -/
  calls : List (Call × Submission)
  /-- The calls that created their transaction, in the order in which they did. -/
  committed : List Call

namespace System

/-- Valid calls that have all just arrived. -/
def start (l : Ledger) (calls : List Call) : System :=
  ⟨l, calls.map fun c => (c, .arrived), []⟩

/-- The call at a position takes its next step. -/
def advance (σ : System) (i : Nat) : System :=
  match σ.calls[i]? with
  | none => σ
  | some (c, phase) =>
    let next := Submission.step c.clock c.transaction σ.ledger phase
    { ledger := next.2
      calls := σ.calls.set i (c, next.1)
      committed :=
        if !phase.isCreated && next.1.isCreated then σ.committed ++ [c] else σ.committed }

/-- The calls at the positions of a schedule take one step each. -/
def run (σ : System) (schedule : List Nat) : System := schedule.foldl advance σ

/-- How many completed calls created the transaction with the given id. -/
def creations (σ : System) (id : String) : Nat :=
  σ.calls.countP fun c => c.2.isCreated && c.1.id = id

/-- A system that is explained by the order of its commits. -/
structure Serializable (l : Ledger) (calls : List Call) (σ : System) : Prop where
  /-- The calls are those that arrived. -/
  calls_eq : σ.calls.map Prod.fst = calls
  /-- A completed call has no fault: it created its transaction, or was compared with the lines that
  are stored under its id. -/
  answers : ∀ c answer, (c, Submission.finished answer) ∈ σ.calls →
    answer = .ok .created ∨
      (answer = .ok .duplicate ∧
        c.transaction.lines.Perm (σ.ledger.store.tables.linesOf c.id)) ∨
      (answer = .ok .conflict ∧
        ¬ c.transaction.lines.Perm (σ.ledger.store.tables.linesOf c.id))
  /-- The lines that are stored are those of the call that created the transaction. -/
  lines_of_winner : ∀ c, (c, Submission.finished (.ok .created)) ∈ σ.calls →
    σ.ledger.store.tables.linesOf c.id = c.transaction.lines
  /-- A new transaction is created once as soon as one of its calls is completed. -/
  created_once : ∀ id, (l.store.tables.header? id).isNone = true →
    (∃ c answer, (c, Submission.finished answer) ∈ σ.calls ∧ c.id = id) → σ.creations id = 1
  /-- A transaction that was there before is not created. -/
  not_created : ∀ id, (l.store.tables.header? id).isSome = true → σ.creations id = 0
  /-- It keeps its lines. -/
  lines_of_present : ∀ id, (l.store.tables.header? id).isSome = true →
    σ.ledger.store.tables.linesOf id = l.store.tables.linesOf id
  /-- The order of commits has the calls that created their transaction, each once. -/
  committed_perm :
    σ.committed.Perm ((σ.calls.filter fun c => c.2.isCreated).map Prod.fst)
  /-- These calls alone, one after another, lead to the same tables. -/
  tables_eq : σ.ledger.store.tables = (l.run (σ.committed.map Call.event)).2.store.tables
  /-- And they are given the same answers. -/
  committed_answers : ∀ p ∈ (l.run (σ.committed.map Call.event)).1, p.2 = .outcome (.ok .created)

/-- What holds of a system after every step. -/
structure Consistent (l : Ledger) (calls : List Call) (σ : System) : Prop where
  isOpen : σ.ledger.store.isOpen = true
  refused : σ.ledger.store.refused = []
  calls_eq : σ.calls.map Prod.fst = calls
  agrees : ∀ c ∈ σ.calls, c.2.Agrees σ.ledger.store.tables c.1.transaction
  serial : l.store.tables.Serial σ.committed σ.ledger.store.tables
  committed_perm :
    σ.committed.Perm ((σ.calls.filter fun c => c.2.isCreated).map Prod.fst)

/-- A list is what stands before a position, the element there and what stands behind. -/
theorem exists_eq_append {α : Type} {xs : List α} {i : Nat} {x : α} (h : xs[i]? = some x) :
    ∃ front back, xs = front ++ x :: back ∧ ∀ y, xs.set i y = front ++ y :: back := by
  obtain ⟨hi, rfl⟩ := List.getElem?_eq_some_iff.mp h
  refine ⟨xs.take i, xs.drop (i + 1), ?_, fun y => List.set_eq_take_append_cons_drop.trans ?_⟩
  · simp
  · rw [if_pos hi]

/-- When one element is replaced, what follows for all others from what held holds of all elements if
it holds of the new one. -/
theorem forall_mem_replaced {α : Type} {P Q : α → Prop} {front back : List α} {x y : α}
    (h : ∀ z ∈ front ++ x :: back, P z) (hfollows : ∀ z, P z → Q z) (hy : Q y) :
    ∀ z ∈ front ++ y :: back, Q z := by
  obtain ⟨hfront, hrest⟩ := List.forall_mem_append.mp h
  obtain ⟨-, hback⟩ := List.forall_mem_cons.mp hrest
  exact List.forall_mem_append.mpr ⟨fun z hz => hfollows z (hfront z hz),
    List.forall_mem_cons.mpr ⟨hy, fun z hz => hfollows z (hback z hz)⟩⟩

namespace Consistent

variable {l : Ledger} {calls : List Call} {σ : System}

/-- Calls that have just arrived are consistent. -/
theorem start (hopen : l.store.isOpen = true) (hrefused : l.store.refused = [])
    (calls : List Call) : Consistent l calls (System.start l calls) where
  isOpen := hopen
  refused := hrefused
  calls_eq := by simp [System.start, Function.comp_def]
  agrees := by
    intro c hc
    obtain ⟨d, -, rfl⟩ := List.mem_map.mp hc
    trivial
  serial := .nil
  committed_perm := by
    simp [System.start, Submission.isCreated, List.filter_map, Function.comp_def]

/-- A step that leaves the store as it is leaves a system consistent. -/
private theorem of_store_eq (h : Consistent l calls σ) {front back : List (Call × Submission)}
    {c : Call} {phase next : Submission} {after : Ledger}
    (hsplit : σ.calls = front ++ (c, phase) :: back) (hstore : after.store = σ.ledger.store)
    (hcreated : next.isCreated = phase.isCreated)
    (hagrees : next.Agrees σ.ledger.store.tables c.transaction) :
    Consistent l calls ⟨after, front ++ (c, next) :: back, σ.committed⟩ where
  isOpen := by rw [hstore, h.isOpen]
  refused := by rw [hstore, h.refused]
  calls_eq := by
    rw [← h.calls_eq, hsplit]
    simp
  agrees := by
    rw [hstore]
    exact forall_mem_replaced (hsplit ▸ h.agrees) (fun _ hd => hd) hagrees
  serial := by
    rw [hstore]
    exact h.serial
  committed_perm := by
    refine h.committed_perm.trans (List.Perm.of_eq ?_)
    rw [hsplit, List.filter_append, List.filter_append, List.filter_cons, List.filter_cons,
      hcreated]
    split_ifs <;> simp

/-- A step that commits a transaction leaves a system consistent. -/
private theorem of_commit (h : Consistent l calls σ) {front back : List (Call × Submission)}
    {c : Call} {phase : Submission} {after : Ledger}
    (hsplit : σ.calls = front ++ (c, phase) :: back) (hnot : phase.isCreated = false)
    (hvalid : c.transaction.Valid)
    (habsent : (σ.ledger.store.tables.header? c.id).isNone = true)
    (hstore : after.store = { σ.ledger.store with
      tables := σ.ledger.store.tables.withTransaction c.transaction c.timestamp }) :
    Consistent l calls
      ⟨after, front ++ (c, .finished (.ok .created)) :: back, σ.committed ++ [c]⟩ where
  isOpen := by rw [hstore, h.isOpen]
  refused := by rw [hstore, h.refused]
  calls_eq := by
    rw [← h.calls_eq, hsplit]
    simp
  agrees := by
    rw [hstore]
    refine forall_mem_replaced (hsplit ▸ h.agrees) (fun _ hd => hd.withTransaction _ habsent) ?_
    refine ⟨?_, .inl rfl⟩
    rw [Tables.header?_withTransaction_isSome]
    exact .inr rfl
  serial := by
    rw [hstore]
    exact h.serial.snoc hvalid habsent
  committed_perm := by
    have hbefore := h.committed_perm
    rw [hsplit, List.filter_append, List.filter_cons_of_neg (by simp [hnot])] at hbefore
    rw [List.filter_append, List.filter_cons_of_pos rfl, List.map_append, List.map_cons]
    rw [List.map_append] at hbefore
    exact (hbefore.append_right [c]).trans
      ((List.perm_append_singleton c _).trans List.perm_middle.symm)

/-- Every step of a call leaves a system consistent. -/
theorem advance (h : Consistent l calls σ) (hvalid : ∀ c ∈ calls, c.transaction.Valid) (i : Nat) :
    Consistent l calls (σ.advance i) := by
  unfold System.advance
  cases hcall : σ.calls[i]? with
  | none => exact h
  | some call =>
    obtain ⟨c, phase⟩ := call
    obtain ⟨front, back, hsplit, hset⟩ := exists_eq_append hcall
    have hmem : (c, phase) ∈ σ.calls := by simp [hsplit]
    have hc : c ∈ calls := h.calls_eq ▸ List.mem_map_of_mem hmem
    dsimp only
    rw [hset]
    -- The store stays as it is, or this call is the one whose commit succeeds.
    rcases Submission.step_cases c.clock h.isOpen h.refused (h.agrees _ hmem) with
      ⟨hstore, hcreated, hagrees⟩ | ⟨hnot, habsent, hfinished, hstore⟩
    · rw [hcreated, Bool.not_and_self, if_neg (by simp)]
      exact h.of_store_eq hsplit hstore hcreated hagrees
    · rw [hfinished, hnot]
      exact h.of_commit hsplit hnot (hvalid c hc) habsent hstore

/-- Every schedule leaves a system consistent. -/
theorem run (h : Consistent l calls σ) (hvalid : ∀ c ∈ calls, c.transaction.Valid)
    (schedule : List Nat) : Consistent l calls (σ.run schedule) := by
  induction schedule generalizing σ with
  | nil => exact h
  | cons i rest ih => exact ih (h.advance hvalid i)

/-- The creations of a transaction are counted by the calls that committed. -/
theorem creations_eq (h : Consistent l calls σ) (id : String) :
    σ.creations id = (σ.committed.map Call.id).count id := by
  have hids := (h.committed_perm.map Call.id).count_eq id
  rw [hids, creations, List.count, List.countP_map, List.countP_map, List.countP_filter]
  refine List.countP_congr fun c _ => ?_
  simp [and_comm]

/-- A consistent system is explained by the order of its commits. -/
theorem serializable (h : Consistent l calls σ) (hintact : l.store.tables.Intact)
    (hopen : l.store.isOpen = true) (hrefused : l.store.refused = []) :
    Serializable l calls σ where
  calls_eq := h.calls_eq
  answers := by
    intro c answer hc
    obtain ⟨-, hanswer⟩ := h.agrees _ hc
    refine hanswer.imp_right fun hverdict => ?_
    rw [Submission.verdict] at hverdict
    by_cases hsame : Line.same (σ.ledger.store.tables.linesOf c.id) c.transaction.lines = true
    · exact .inl ⟨hverdict.trans (congrArg _ (if_pos hsame)),
        ((Line.same_iff_perm _ _).mp hsame).symm⟩
    · exact .inr ⟨hverdict.trans (congrArg _ (if_neg hsame)),
        fun hperm => hsame ((Line.same_iff_perm _ _).mpr hperm.symm)⟩
  lines_of_winner := by
    intro c hc
    have hcreated : c ∈ (σ.calls.filter fun c => c.2.isCreated).map Prod.fst :=
      List.mem_map.mpr ⟨_, List.mem_filter.mpr ⟨hc, rfl⟩, rfl⟩
    exact h.serial.linesOf_of_mem hintact c (h.committed_perm.mem_iff.mpr hcreated)
  created_once := by
    rintro id habsent ⟨c, answer, hc, rfl⟩
    obtain ⟨hpresent, -⟩ := h.agrees _ hc
    rw [h.creations_eq]
    refine List.count_eq_one_of_mem h.serial.nodup_ids ?_
    rcases (h.serial.header?_isSome c.id).mp hpresent with hstart | ⟨d, hd, hid⟩
    · exact absurd hstart (by simpa using habsent)
    · exact List.mem_map.mpr ⟨d, hd, hid⟩
  not_created := by
    intro id hpresent
    rw [h.creations_eq]
    refine List.count_eq_zero_of_not_mem fun hid => ?_
    obtain ⟨c, hc, rfl⟩ := List.mem_map.mp hid
    have habsent := h.serial.absent c hc
    rw [Option.isNone_iff_eq_none] at habsent
    exact absurd hpresent (by simp [habsent])
  lines_of_present := fun id hpresent => h.serial.linesOf_of_present hpresent
  committed_perm := h.committed_perm
  tables_eq := by rw [(h.serial.run_events hopen hrefused).1]
  committed_answers := (h.serial.run_events hopen hrefused).2

end Consistent

/-! ## Progress -/

/-- How many steps the call at a position may still take. -/
def remainingAt (σ : System) (i : Nat) : Nat :=
  match σ.calls[i]? with
  | none => 0
  | some c => c.2.remaining

/-- A step of a call brings it closer to its end. -/
theorem remainingAt_advance_self (σ : System) (i : Nat) :
    (σ.advance i).remainingAt i ≤ σ.remainingAt i - 1 := by
  cases hcall : σ.calls[i]? with
  | none => simp [advance, remainingAt, hcall]
  | some call =>
    obtain ⟨c, phase⟩ := call
    obtain ⟨hi, -⟩ := List.getElem?_eq_some_iff.mp hcall
    have hstep := Submission.remaining_step_lt c.clock c.transaction σ.ledger phase
    simp only [advance, remainingAt, hcall, List.getElem?_set_self hi]
    by_cases hzero : phase.remaining = 0
    · cases phase with
      | finished answer => exact Nat.zero_le _
      | arrived | known | fresh => simp [Submission.remaining] at hzero
    · have := hstep hzero
      omega

/-- A step of another call leaves a call where it is. -/
theorem remainingAt_advance_of_ne (σ : System) {i j : Nat} (hne : j ≠ i) :
    (σ.advance j).remainingAt i = σ.remainingAt i := by
  cases hcall : σ.calls[j]? with
  | none => simp only [advance, hcall]
  | some call => simp only [advance, remainingAt, hcall, List.getElem?_set_ne hne]

/-- A schedule brings a call as many steps closer to its end as it gives to it. -/
theorem remainingAt_run (σ : System) (schedule : List Nat) (i : Nat) :
    (σ.run schedule).remainingAt i ≤ σ.remainingAt i - schedule.count i := by
  have hown : ∀ (σ : System) j, (j == i) = true →
      (σ.advance j).remainingAt i ≤ σ.remainingAt i - 1 := by
    intro σ j hj
    obtain rfl := beq_iff_eq.mp hj
    exact σ.remainingAt_advance_self j
  have hother : ∀ (σ : System) j, (j == i) = false →
      (σ.advance j).remainingAt i = σ.remainingAt i :=
    fun σ j hj => σ.remainingAt_advance_of_ne (by simpa using hj)
  exact remaining_foldl_le advance (fun σ => σ.remainingAt i) (· == i) hown hother σ schedule

/-- A call with no steps left is completed. -/
theorem exists_finished {σ : System} {i : Nat} (hi : i < σ.calls.length)
    (h : σ.remainingAt i = 0) : ∃ c answer, σ.calls[i]? = some (c, .finished answer) := by
  rw [remainingAt] at h
  cases hcall : σ.calls[i]? with
  | none => exact absurd hi (by simpa using hcall)
  | some call =>
    obtain ⟨c, phase⟩ := call
    rw [hcall] at h
    cases phase with
    | finished answer => exact ⟨c, answer, rfl⟩
    | arrived | known | fresh => simp [Submission.remaining] at h

/-- Valid submissions that arrive at a ledger whose store is open and refuses nothing may take their
steps in any order: the order of their commits explains the tables and all answers, and every call
that is given three steps is completed. -/
theorem serializable_run {l : Ledger} (hreachable : l.Reachable) (hopen : l.store.isOpen = true)
    (hrefused : l.store.refused = []) {calls : List Call}
    (hvalid : ∀ c ∈ calls, c.transaction.Valid) (schedule : List Nat) :
    Serializable l calls ((start l calls).run schedule) ∧
      ∀ i < calls.length, 3 ≤ schedule.count i →
        ∃ c answer, ((start l calls).run schedule).calls[i]? = some (c, .finished answer) := by
  have hconsistent := (Consistent.start hopen hrefused calls).run hvalid schedule
  refine ⟨hconsistent.serializable hreachable.intact hopen hrefused, fun i hi hsteps => ?_⟩
  have hlength : i < ((start l calls).run schedule).calls.length := by
    rw [← List.length_map (f := Prod.fst), hconsistent.calls_eq]
    exact hi
  refine exists_finished hlength ?_
  have hstart : (start l calls).remainingAt i = 3 := by
    simp [remainingAt, start, List.getElem?_map, List.getElem?_eq_getElem hi, Submission.remaining]
  have hrun := (start l calls).remainingAt_run schedule i
  omega

/-- Two calls that submit the same lines under one id, in different order. -/
def rivals : List Call :=
  match Time.Timestamp.of? 2000 1 1 0 0 0 0 with
  | none => []
  | some midnight =>
    [⟨⟨midnight, .zero false⟩, "t", some midnight, [], [⟨"a", 100⟩, ⟨"b", -100⟩]⟩,
      ⟨⟨midnight, .zero false⟩, "t", some midnight, [], [⟨"b", -100⟩, ⟨"a", 100⟩]⟩]

/-- Of two rivals that both find the ledger empty one creates the transaction. -/
theorem serializable_run_rivals :
    Ledger.uncounted.Reachable ∧ (∀ c ∈ rivals, c.transaction.Valid) ∧
      Serializable Ledger.uncounted rivals
        ((start Ledger.uncounted rivals).run [0, 1, 0, 1, 0, 1]) ∧
      ((start Ledger.uncounted rivals).run [0, 1, 0, 1, 0, 1]).creations "t" = 1 := by
  have hreachable : Ledger.uncounted.Reachable := ⟨none, [], rfl⟩
  have hvalid : ∀ c ∈ rivals, c.transaction.Valid := by
    intro c hc
    rw [← Transaction.validate_eq_ok_iff]
    rcases List.mem_cons.mp hc with rfl | hc
    · rfl
    · rw [List.mem_singleton.mp hc]
      rfl
  obtain ⟨hserializable, hcompleted⟩ :=
    serializable_run hreachable rfl rfl hvalid [0, 1, 0, 1, 0, 1]
  obtain ⟨c, answer, hcall⟩ := hcompleted 0 (by decide) (by decide)
  have hmem := List.mem_of_getElem? hcall
  have hc : c ∈ rivals := hserializable.calls_eq ▸ List.mem_map_of_mem hmem
  have hid : c.id = "t" := by
    rcases List.mem_cons.mp hc with rfl | hc
    · rfl
    · rw [List.mem_singleton.mp hc]
      rfl
  exact ⟨hreachable, hvalid, hserializable,
    hserializable.created_once "t" rfl ⟨c, answer, hmem, hid⟩⟩

end System

end DoubleEntry
