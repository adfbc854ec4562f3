import DoubleEntry.Proofs.Ledger.History

/-!
# What the counters of a ledger count

Every counter of a ledger is the number of answers of one kind that were given in its history. The
counters follow from the exchanges alone: what an event is answered, and what becomes of the store,
does not depend on whether the ledger counts.
-/

namespace DoubleEntry

/-! ## Tallies -/

namespace Tally

/-- A tally with its labels in strict order, each of them once. -/
def Sorted (t : Tally) : Prop := t.Pairwise fun a b => a.1 < b.1

/-- A label that is recorded is one of the labels, and no other comes in. -/
theorem mem_record {label : String} {t : Tally} {entry : String × Nat}
    (h : entry ∈ t.record label) : entry.1 = label ∨ entry.1 ∈ t.map Prod.fst := by
  induction t with
  | nil =>
    obtain rfl := List.mem_singleton.mp h
    exact .inl rfl
  | cons first rest ih =>
    obtain ⟨l, n⟩ := first
    rw [record] at h
    split_ifs at h with heq hlt
    · rcases List.mem_cons.mp h with rfl | hmem
      · exact .inl heq.symm
      · exact .inr (List.mem_cons_of_mem _ (List.mem_map_of_mem hmem))
    · rcases List.mem_cons.mp h with rfl | hmem
      · exact .inl rfl
      · exact .inr (List.mem_map_of_mem hmem)
    · rcases List.mem_cons.mp h with rfl | hmem
      · exact .inr List.mem_cons_self
      · exact (ih hmem).imp_right (List.mem_cons_of_mem _)

/-- Recording a label keeps the labels in order. -/
theorem Sorted.record {t : Tally} (h : t.Sorted) (label : String) : (t.record label).Sorted := by
  induction t with
  | nil => exact List.pairwise_singleton _ _
  | cons first rest ih =>
    obtain ⟨l, n⟩ := first
    obtain ⟨hfirst, hrest⟩ := List.pairwise_cons.mp h
    rw [Tally.record]
    split_ifs with heq hlt
    · exact List.pairwise_cons.mpr ⟨hfirst, hrest⟩
    · refine List.pairwise_cons.mpr ⟨List.forall_mem_cons.mpr ⟨hlt, fun entry hentry => ?_⟩, h⟩
      exact hlt.trans (hfirst entry hentry)
    · refine List.pairwise_cons.mpr ⟨fun entry hentry => ?_, ih hrest⟩
      rcases mem_record hentry with hlabel | hmem
      · exact hlabel ▸ lt_of_le_of_ne (not_lt.mp hlt) fun e => heq e.symm
      · obtain ⟨old, hold, hsame⟩ := List.mem_map.mp hmem
        exact hsame ▸ hfirst old hold

/-- A label below all others was never recorded. -/
theorem count_eq_zero {label : String} {t : Tally} (h : ∀ entry ∈ t, label < entry.1) :
    t.count label = 0 := by
  induction t with
  | nil => rfl
  | cons first rest ih =>
    obtain ⟨hfirst, hrest⟩ := List.forall_mem_cons.mp h
    rw [count, if_neg hfirst.ne, ih hrest]

/-- Recording a label adds one to its count and nothing to the others. -/
theorem count_record {t : Tally} (h : t.Sorted) (label other : String) :
    (t.record label).count other = t.count other + if other = label then 1 else 0 := by
  induction t with
  | nil => simp [Tally.record, count]
  | cons first rest ih =>
    obtain ⟨l, n⟩ := first
    obtain ⟨hfirst, hrest⟩ := List.pairwise_cons.mp h
    by_cases heq : label = l
    · obtain rfl := heq
      rw [Tally.record, if_pos rfl, count, count]
      split_ifs <;> rfl
    rw [Tally.record, if_neg heq]
    by_cases hlt : label < l
    · rw [if_pos hlt, count]
      split_ifs with hother
      · -- The label is new: it comes before all that are there.
        have hnew : Tally.count label ((l, n) :: rest) = 0 := count_eq_zero
          (List.forall_mem_cons.mpr ⟨hlt, fun entry hentry => hlt.trans (hfirst entry hentry)⟩)
        rw [hother, hnew]
      · rfl
    · rw [if_neg hlt, count, count, ih hrest]
      by_cases hfound : other = l
      · have hother : other ≠ label := fun e => heq (e ▸ hfound)
        rw [if_pos hfound, if_pos hfound, if_neg hother, Nat.add_zero]
      · rw [if_neg hfound, if_neg hfound]

end Tally

/-! ## What is recorded -/

/-- An event with its answer. -/
abbrev Exchange := Event × Answer

namespace Exchange

open Search (Namespace)

/-- What a ledger that counts records of an exchange. -/
def record : Exchange → Metrics → Metrics
  | (.submit clock _, .outcome (.ok .created)), m =>
    (m.recordOutcome Outcome.created.name).recordDuration clock.elapsed
  | (.submit _ _, .outcome (.ok outcome)), m => m.recordOutcome outcome.name
  | (.submit _ _, .outcome (.error (.input _))), m => m.recordOutcome "rejected"
  | (.submit _ _, .outcome (.error (.commit _ _))), m => m.recordFailure
  | (.search collection _, .results answer), m =>
    match Namespace.ofName collection, answer with
    | .ok space, .ok _ => m.recordSearch space.name
    | .ok space, .error _ => m.recordSearchError space.name
    | .error _, _ => m
  | _, m => m

/-- What a ledger that counts records of exchanges, one after another. -/
def recordAll (exchanges : List Exchange) (m : Metrics) : Metrics :=
  exchanges.foldl (fun m x => x.record m) m

end Exchange

namespace Ledger

/-- A submission is answered alike whatever the counters, and is recorded in those that there
are. -/
theorem submit_recorded (clock : Clock) (t : Transaction) (s : Store) :
    ∃ answer after, ∀ metrics, submit clock t ⟨s, metrics⟩ =
      (answer, ⟨after, metrics.map (Exchange.record (.submit clock t, .outcome answer))⟩) := by
  by_cases h : t.Valid
  · by_cases hopen : s.isOpen = true
    · by_cases hpresent : (s.tables.header? t.id).isSome = true
      · refine ⟨.ok (Submission.verdict (s.tables.linesOf t.id) t.lines), s, fun metrics => ?_⟩
        rw [submit_of_present clock h hopen hpresent]
        cases hverdict : Submission.verdict (s.tables.linesOf t.id) t.lines with
        | created => exact absurd hverdict (Submission.verdict_ne_created _ _)
        | duplicate => rfl
        | conflict => rfl
      · have habsent : (s.tables.header? t.id).isNone = true := by simpa using hpresent
        by_cases hrefused : s.RefusesRows t
        · obtain ⟨fault, hfault⟩ :=
            Store.exists_commit_eq_error (t.timestamp.getD clock.now) habsent hrefused
          refine ⟨.error (.commit t.id fault), s, fun metrics => ?_⟩
          rw [submit_of_absent clock h hopen habsent, Submission.settle]
          simp only [Submission.step, hfault, Submission.settle]
          rfl
        · refine ⟨.ok .created, { s with
            tables := s.tables.withTransaction t (t.timestamp.getD clock.now) }, fun metrics => ?_⟩
          rw [submit_of_accepted clock h hopen habsent hrefused]
          cases metrics <;> rfl
    · refine ⟨.error (.store .closed), s, fun metrics => ?_⟩
      rw [submit_of_closed clock h (by simpa using hopen)]
      cases metrics <;> rfl
  · obtain ⟨fault, hfault⟩ := Transaction.exists_validate_eq_error h
    refine ⟨.error (.input fault), s, fun metrics => ?_⟩
    rw [submit, hfault]
    rfl

/-- A search is answered alike whatever the counters, and is recorded in those that there are. -/
theorem searchIn_recorded (collection text : String) (s : Store) :
    ∃ answer, ∀ metrics, searchIn collection text ⟨s, metrics⟩ =
      (answer, ⟨s, metrics.map (Exchange.record (.search collection text, .results answer))⟩) := by
  cases hspace : Search.Namespace.ofName collection with
  | error fault =>
    refine ⟨.error fault, fun metrics => ?_⟩
    cases metrics <;> simp [searchIn, Exchange.record, hspace]
  | ok space =>
    refine ⟨Search.answer space text s, fun metrics => ?_⟩
    cases hanswer : Search.answer space text s <;>
      cases metrics <;> simp [searchIn, search, count, Exchange.record, hspace, hanswer]

/-- Creating an account asks and changes no counter. -/
theorem createAccount_uncounted (id : String) (data : Data) (s : Store) :
    ∃ answer after, ∀ metrics, createAccount id data ⟨s, metrics⟩ = (answer, ⟨after, metrics⟩) := by
  unfold createAccount
  split
  · exact ⟨_, _, fun metrics => rfl⟩
  · exact ⟨(Creation.settle id data .arrived s).1, (Creation.settle id data .arrived s).2,
      fun metrics => rfl⟩

/-- Replacing data asks and changes no counter. -/
theorem replaceData_uncounted (entity : Entity) (data : Data)
    (update : Store → Except StoreFault (Nat × Store)) (s : Store) :
    ∃ answer after, ∀ metrics, replaceData entity data update ⟨s, metrics⟩ =
      (answer, ⟨after, metrics⟩) := by
  unfold replaceData
  split
  · exact ⟨_, _, fun metrics => rfl⟩
  · dsimp only
    split <;> exact ⟨_, _, fun metrics => rfl⟩

/-- An event is answered alike whatever the counters, and the exchange is recorded in those that
there are. -/
theorem respond_recorded (e : Event) (s : Store) :
    ∃ answer after, ∀ metrics, respond ⟨s, metrics⟩ e =
      (answer, ⟨after, metrics.map (Exchange.record (e, answer))⟩) := by
  cases e with
  | submit clock t =>
    obtain ⟨answer, after, h⟩ := submit_recorded clock t s
    exact ⟨.outcome answer, after, fun metrics => by rw [respond, h]⟩
  | search collection text =>
    obtain ⟨answer, h⟩ := searchIn_recorded collection text s
    exact ⟨.results answer, s, fun metrics => by rw [respond, h]⟩
  | createAccount id data =>
    obtain ⟨answer, after, h⟩ := createAccount_uncounted id data s
    refine ⟨.done answer, after, fun metrics => ?_⟩
    rw [respond, h]
    cases metrics <;> rfl
  | updateAccount id data =>
    obtain ⟨answer, after, h⟩ := replaceData_uncounted (.account id) data
      (fun s => s.updateAccountData id data) s
    refine ⟨.done answer, after, fun metrics => ?_⟩
    rw [respond, updateAccount, h]
    cases metrics <;> rfl
  | updateTransaction id data =>
    obtain ⟨answer, after, h⟩ := replaceData_uncounted (.transaction id) data
      (fun s => s.updateTransactionData id data) s
    refine ⟨.done answer, after, fun metrics => ?_⟩
    rw [respond, updateTransaction, h]
    cases metrics <;> rfl
  | account id =>
    exact ⟨.account (account id ⟨s, none⟩), s, fun metrics => by cases metrics <;> rfl⟩
  | balanceAt id on =>
    exact ⟨.balance (balanceAt id on ⟨s, none⟩), s, fun metrics => by cases metrics <;> rfl⟩
  | refuse table => exact ⟨.nothing, s.refuse table, fun metrics => by cases metrics <;> rfl⟩
  | allow table => exact ⟨.nothing, s.allow table, fun metrics => by cases metrics <;> rfl⟩
  | close => exact ⟨.nothing, s.close, fun metrics => by cases metrics <;> rfl⟩
  | reopen => exact ⟨.nothing, s.reopen, fun metrics => by cases metrics <;> rfl⟩

/-- A history is answered alike whatever the counters, and its exchanges are recorded in those that
there are. -/
theorem run_recorded (events : List Event) (s : Store) :
    ∃ exchanges after, ∀ metrics, run ⟨s, metrics⟩ events =
      (exchanges, ⟨after, metrics.map (Exchange.recordAll exchanges)⟩) := by
  induction events generalizing s with
  | nil => exact ⟨[], s, fun metrics => by cases metrics <;> rfl⟩
  | cons e rest ih =>
    obtain ⟨answer, after, hfirst⟩ := respond_recorded e s
    obtain ⟨exchanges, last, hrest⟩ := ih after
    refine ⟨(e, answer) :: exchanges, last, fun metrics => ?_⟩
    rw [run, hfirst, hrest]
    cases metrics <;> rfl

end Ledger

/-! ## Counters -/

/-- The counters of a ledger. -/
inductive Counter where
  /-- The sample of `ledger_transactions_total` with an outcome. -/
  | outcome (o : Outcome)
  /-- The sample of `ledger_transactions_total` with the label `rejected`. -/
  | rejected
  /-- `ledger_commit_duration_seconds_count`. -/
  | durations
  /-- `ledger_commit_failures_total`. -/
  | failures
  /-- `ledger_commit_races_total`. -/
  | races
  /-- The sample of `ledger_search_queries_total` with a namespace. -/
  | searches (space : Search.Namespace)
  /-- The sample of `ledger_search_errors_total` with a namespace. -/
  | searchErrors (space : Search.Namespace)

namespace Counter

/-- The value of a counter. -/
def read : Counter → Metrics → Nat
  | outcome o, m => m.outcomes.count o.name
  | rejected, m => m.outcomes.count "rejected"
  | durations, m => m.durations.total
  | failures, m => m.failures
  | races, m => m.races
  | searches space, m => m.searches.count space.name
  | searchErrors space, m => m.searchErrors.count space.name

/-- The exchanges that a counter counts. No exchange is a race, which takes two submissions that
overlap. -/
def counts : Counter → Exchange → Bool
  | outcome o, (.submit _ _, .outcome (.ok o')) => o' == o
  | rejected, (.submit _ _, .outcome (.error (.input _))) => true
  | durations, (.submit _ _, .outcome (.ok .created)) => true
  | failures, (.submit _ _, .outcome (.error (.commit _ _))) => true
  | searches space, (.search collection _, .results (.ok _)) => collection == space.name
  | searchErrors space, (.search collection _, .results (.error _)) => collection == space.name
  | _, _ => false

end Counter

/-- Counters whose tallies are in order. -/
structure Metrics.Sorted (m : Metrics) : Prop where
  outcomes : m.outcomes.Sorted
  searches : m.searches.Sorted
  searchErrors : m.searchErrors.Sorted

/-- Counters at zero are in order. -/
theorem Metrics.sorted_empty : Metrics.empty.Sorted :=
  ⟨List.Pairwise.nil, List.Pairwise.nil, List.Pairwise.nil⟩

/-- A name is that of a collection when it is found. -/
theorem Search.Namespace.ofName_eq_ok_iff {name : String} {space : Namespace} :
    ofName name = .ok space ↔ name = space.name := by
  unfold ofName
  split_ifs with haccounts htransactions
  · subst haccounts
    cases space <;> decide
  · subst htransactions
    cases space <;> decide
  · cases space <;> simp [haccounts, htransactions]

namespace Exchange

variable {m : Metrics}

/-- What is recorded keeps the counters in order. -/
theorem sorted_record (h : m.Sorted) (x : Exchange) : (x.record m).Sorted := by
  unfold record
  split
  · exact ⟨h.outcomes.record _, h.searches, h.searchErrors⟩
  · exact ⟨h.outcomes.record _, h.searches, h.searchErrors⟩
  · exact ⟨h.outcomes.record _, h.searches, h.searchErrors⟩
  · exact ⟨h.outcomes, h.searches, h.searchErrors⟩
  · split
    · exact ⟨h.outcomes, h.searches.record _, h.searchErrors⟩
    · exact ⟨h.outcomes, h.searches, h.searchErrors.record _⟩
    · exact h
  · exact h

/-- Every counter is raised by the exchanges that it counts, and by no others. -/
theorem read_record (h : m.Sorted) (c : Counter) (x : Exchange) :
    c.read (x.record m) = c.read m + if c.counts x then 1 else 0 := by
  obtain ⟨e, a⟩ := x
  cases e with
  | submit clock t =>
    cases a with
    | outcome answer =>
      cases answer with
      | ok o =>
        have hlabel : ∀ label, (record (.submit clock t, .outcome (.ok o)) m).outcomes.count label =
            m.outcomes.count label + if label = o.name then 1 else 0 := fun label => by
          cases o <;> exact Tally.count_record h.outcomes _ label
        cases c with
        | outcome o' =>
          refine (hlabel o'.name).trans ?_
          cases o <;> cases o' <;> rfl
        | rejected =>
          refine (hlabel "rejected").trans ?_
          cases o <;> rfl
        | _ => cases o <;> rfl
      | error fault =>
        cases fault with
        | input fault =>
          have hlabel : ∀ label,
              (record (.submit clock t, .outcome (.error (.input fault))) m).outcomes.count label =
                m.outcomes.count label + if label = "rejected" then 1 else 0 :=
            fun label => Tally.count_record h.outcomes _ label
          cases c with
          | outcome o =>
            refine (hlabel o.name).trans ?_
            cases o <;> rfl
          | rejected => exact hlabel "rejected"
          | _ => rfl
        | commit id fault => cases c <;> rfl
        | _ => cases c <;> rfl
    | _ => cases c <;> rfl
  | search collection text =>
    cases a with
    | results answer =>
      cases hspace : Search.Namespace.ofName collection with
      | error fault =>
        have hnone : ∀ space : Search.Namespace, (collection == space.name) = false := by
          intro space
          rw [beq_eq_false_iff_ne]
          intro hname
          rw [Search.Namespace.ofName_eq_ok_iff.mpr hname] at hspace
          exact absurd hspace (by simp)
        cases answer <;> cases c <;> simp [record, Counter.counts, hspace, hnone]
      | ok found =>
        obtain rfl := Search.Namespace.ofName_eq_ok_iff.mp hspace
        cases answer with
        | ok results =>
          cases c with
          | searches space =>
            simp only [record, hspace, Counter.counts, Counter.read, Metrics.recordSearch,
              Tally.count_record h.searches]
            cases found <;> cases space <;> rfl
          | _ => simp [record, hspace, Counter.counts, Counter.read, Metrics.recordSearch]
        | error fault =>
          cases c with
          | searchErrors space =>
            simp only [record, hspace, Counter.counts, Counter.read, Metrics.recordSearchError,
              Tally.count_record h.searchErrors]
            cases found <;> cases space <;> rfl
          | _ => simp [record, hspace, Counter.counts, Counter.read, Metrics.recordSearchError]
    | _ => cases c <;> rfl
  | _ => cases a <;> cases c <;> rfl

/-- After exchanges every counter is raised by the number of those that it counts. -/
theorem read_recordAll (h : m.Sorted) (c : Counter) (exchanges : List Exchange) :
    c.read (recordAll exchanges m) = c.read m + exchanges.countP c.counts := by
  induction exchanges generalizing m with
  | nil => rfl
  | cons x rest ih =>
    have hrest : c.read (recordAll (x :: rest) m) = c.read (x.record m) + rest.countP c.counts :=
      ih (sorted_record h x)
    rw [hrest, read_record h, List.countP_cons]
    omega

end Exchange

namespace Counter

/-- Every counter begins at zero. -/
theorem read_empty (c : Counter) : c.read .empty = 0 := by
  cases c <;> rfl

/-- A duration is taken of every transaction that is created, and of nothing else. -/
theorem counts_durations (x : Exchange) : counts durations x = counts (outcome .created) x := by
  obtain ⟨e, a⟩ := x
  cases e with
  | submit clock t =>
    cases a with
    | outcome answer =>
      rcases answer with fault | o
      · rfl
      · cases o <;> rfl
    | _ => rfl
  | _ => cases a <;> rfl

end Counter

namespace Ledger

/-- On a ledger that counts from zero every counter is the number of those answers in a history that
it counts; so the commits timed are the transactions created, and there are no races. A submission
that fails in the store and every call for an account or for new data leave the counters as they
are. Without counters the history is answered alike and leaves the same store. -/
theorem counters_exact (s : Store) (events : List Event) :
    (∃ m, (run ⟨s, some .empty⟩ events).2.metrics = some m ∧
      (∀ c : Counter, c.read m = (run ⟨s, some .empty⟩ events).1.countP c.counts) ∧
      m.durations.total = m.outcomes.count Outcome.created.name ∧ m.races = 0) ∧
    (∀ (l : Ledger) clock t fault, (l.submit clock t).1 = .error (.store fault) →
      (l.submit clock t).2.metrics = l.metrics) ∧
    (∀ (l : Ledger) id data, (l.createAccount id data).2.metrics = l.metrics ∧
      (l.updateAccount id data).2.metrics = l.metrics ∧
      (l.updateTransaction id data).2.metrics = l.metrics) ∧
    run ⟨s, none⟩ events =
      ((run ⟨s, some .empty⟩ events).1, ⟨(run ⟨s, some .empty⟩ events).2.store, none⟩) := by
  obtain ⟨exchanges, after, hrun⟩ := run_recorded events s
  have hread : ∀ c : Counter, c.read (Exchange.recordAll exchanges .empty) =
      exchanges.countP c.counts := by
    intro c
    rw [Exchange.read_recordAll Metrics.sorted_empty, c.read_empty, Nat.zero_add]
  rw [hrun, hrun]
  refine ⟨⟨_, rfl, hread, ?durations, ?races⟩, ?submission, ?data, rfl⟩
  case durations =>
    refine (hread .durations).trans (Eq.trans ?_ (hread (.outcome .created)).symm)
    exact congrArg (List.countP · exchanges) (funext Counter.counts_durations)
  case races =>
    refine (hread .races).trans (List.countP_eq_zero.mpr fun x _ => ?_)
    simp [Counter.counts]
  case submission =>
    intro l clock t fault hfault
    obtain ⟨answer, after, hsubmit⟩ := submit_recorded clock t l.store
    obtain rfl : answer = .error (.store fault) :=
      (congrArg Prod.fst (hsubmit l.metrics)).symm.trans hfault
    rw [hsubmit l.metrics]
    cases l.metrics <;> rfl
  case data =>
    intro l id data
    obtain ⟨_, _, hcreate⟩ := createAccount_uncounted id data l.store
    obtain ⟨_, _, haccount⟩ := replaceData_uncounted (.account id) data
      (fun s => s.updateAccountData id data) l.store
    obtain ⟨_, _, htransaction⟩ := replaceData_uncounted (.transaction id) data
      (fun s => s.updateTransactionData id data) l.store
    exact ⟨congrArg (fun x => x.2.metrics) (hcreate l.metrics),
      congrArg (fun x => x.2.metrics) (haccount l.metrics),
      congrArg (fun x => x.2.metrics) (htransaction l.metrics)⟩

end Ledger

end DoubleEntry
