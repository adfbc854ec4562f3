import DoubleEntry.Proofs.Http.Intake
import DoubleEntry.Proofs.Http.Refusal
import DoubleEntry.Proofs.Http.Routing
import DoubleEntry.Proofs.Ledger.AllOrNothing

/-!
# What a status tells

Four requests change the ledger, and only under the status of their success. A status that reports
something else, a row that was there before or one that was not, reports it truly, and what is wrong
with a request itself is answered alike on every store. Failures inside the ledger all look the same.
-/

namespace DoubleEntry

/-! ## What the operations answer -/

/-- Data with a key that is not valid fail their check. -/
theorem DataKey.exists_check_eq_error {data : Data} (h : ∃ key ∈ data.keys, ¬ Matches key) :
    ∃ fault, check data = .error fault := by
  obtain ⟨key, hkey, hnot⟩ := h
  cases hcheck : check data with
  | error fault => exact ⟨fault, rfl⟩
  | ok u => exact absurd ((check_eq_ok_iff data).mp hcheck key hkey) hnot

/-- An account without an id or with a key that is not valid fails its check. -/
theorem Creation.exists_check_eq_error {id : String} {data : Data}
    (h : Text.isBlankText id = true ∨ ∃ key ∈ data.keys, ¬ DataKey.Matches key) :
    ∃ fault, check id data = .error fault := by
  unfold check
  split_ifs with hid
  · exact ⟨_, rfl⟩
  · exact DataKey.exists_check_eq_error (h.resolve_left hid)

/-- A commit changes the tables: it adds a header. -/
theorem Tables.IsCommit.ne {before after : Tables} {t : Transaction} {at_ : Time.Timestamp}
    (h : before.IsCommit t at_ after) : after ≠ before := by
  rintro rfl
  simpa using h.headers

/-- A new account changes the tables: it adds a row. -/
theorem Tables.withAccount_ne (t : Tables) (id : String) (data : Data) :
    t.withAccount id data ≠ t := by
  intro h
  simpa [withAccount] using congrArg Tables.accounts h

/-- An insert of an account that finds its key taken has found the account. -/
theorem Store.isSome_of_insertAccount_keyTaken {s : Store} {id : String} {data : Data}
    {table : Table} {key : String} (h : s.insertAccount id data = .error (.keyTaken table key)) :
    (s.tables.account? id).isSome = true := by
  by_cases hopen : s.isOpen = true
  · by_cases haccounts : Table.accounts ∈ s.refused
    · rw [insertAccount, insertAccountRow,
        bind_of_eq_error (contentsForInsert_eq_error hopen haccounts)] at h
      exact absurd h (by simp)
    · rw [insertAccount, insertAccountRow,
        bind_of_eq_ok (contentsForInsert_eq_ok hopen haccounts)] at h
      by_contra hnone
      rw [if_neg hnone] at h
      exact absurd h (by simp)
  · rw [insertAccount, insertAccountRow,
      bind_of_eq_error (contentsForInsert_closed (by simpa using hopen))] at h
    exact absurd h (by simp)

namespace Ledger

/-- A submission fails by its input or inside the ledger, creates its transaction, or is compared
with the lines that are stored under its id. -/
theorem submit_answer_cases (clock : Clock) (t : Transaction) (l : Ledger) :
    (∃ fault, (l.submit clock t).1 = .error fault ∧
        (fault.category.faultClass = .invalidInput ∨ fault.category.faultClass = .internal)) ∨
      (l.submit clock t).1 = .ok .created ∨
      ((l.store.tables.header? t.id).isSome = true ∧
        (l.submit clock t).1 =
          .ok (Submission.verdict (l.store.tables.linesOf t.id) t.lines)) := by
  by_cases hvalid : t.Valid
  · by_cases hopen : l.store.isOpen = true
    · by_cases hpresent : (l.store.tables.header? t.id).isSome = true
      · exact .inr (.inr ⟨hpresent, by rw [submit_of_present clock hvalid hopen hpresent]⟩)
      · have habsent : (l.store.tables.header? t.id).isNone = true := by simpa using hpresent
        by_cases hrefused : l.store.RefusesRows t
        · obtain ⟨fault, h⟩ := submit_of_refused clock hvalid hopen habsent hrefused
          exact .inl ⟨.commit t.id fault, by rw [h], .inr rfl⟩
        · exact .inr (.inl (by rw [submit_of_accepted clock hvalid hopen habsent hrefused]))
    · have hclosed : l.store.isOpen = false := by simpa using hopen
      exact .inl ⟨.store .closed, by rw [submit_of_closed clock hvalid hclosed], .inr rfl⟩
  · obtain ⟨fault, h⟩ := submit_of_not_valid (l := l) clock hvalid
    exact .inl ⟨.input fault, by rw [h], .inl rfl⟩

/-- An account whose creation is a conflict is there. -/
theorem isSome_of_createAccount_conflict {id : String} {data : Data} {l : Ledger}
    {fault : LedgerFault} (h : (l.createAccount id data).1 = .error fault)
    (hconflict : fault.category.faultClass = .conflict) :
    (l.store.tables.account? id).isSome = true := by
  unfold createAccount at h
  cases hcheck : Creation.check id data with
  | error reason =>
    rw [hcheck] at h
    obtain rfl := Except.error.inj h
    exact absurd hconflict (by simp [LedgerFault.category, Category.faultClass])
  | ok u =>
    rw [hcheck] at h
    cases hexists : l.store.accountExists id with
    | error reason =>
      obtain rfl : .store reason = fault := by
        simpa [Creation.settle, Creation.step, hexists] using h
      exact absurd hconflict (by simp [LedgerFault.category, Category.faultClass])
    | ok there =>
      cases there with
      | true =>
        obtain ⟨t, ht, hthere⟩ := bind_eq_ok_iff.mp hexists
        obtain rfl : l.store.tables = t := by
          unfold Store.contents at ht
          split_ifs at ht
          exact Except.ok.inj ht
        exact Except.ok.inj hthere
      | false =>
        cases hinsert : l.store.insertAccount id data with
        | ok next => simp [Creation.settle, Creation.step, hexists, hinsert] at h
        | error reason =>
          obtain rfl : Creation.insertFault id reason = fault := by
            simpa [Creation.settle, Creation.step, hexists, hinsert] using h
          cases reason with
          | keyTaken table key => exact Store.isSome_of_insertAccount_keyTaken hinsert
          | _ =>
            exact absurd hconflict
              (by simp [Creation.insertFault, LedgerFault.category, Category.faultClass])

/-- Replacing data by an update that touches rows of an open store fails, by its input, inside the
ledger or because no row is touched, or it is done. -/
theorem replaceData_answer_cases {l : Ledger} (entity : Entity) (data : Data)
    (update : Store → Except StoreFault (Nat × Store)) {touched : Nat} {tables : Tables}
    (hupdate : update l.store =
      if l.store.isOpen = true then .ok (touched, { l.store with tables := tables })
      else .error .closed) :
    (∃ fault, l.replaceData entity data update = (.error fault, l) ∧
        (fault.category.faultClass = .invalidInput ∨ fault.category.faultClass = .internal ∨
          fault.category.faultClass = .notFound ∧ touched = 0)) ∨
      (touched ≠ 0 ∧ l.replaceData entity data update =
        (.ok (), { l with store := { l.store with tables := tables } })) := by
  unfold replaceData
  rw [hupdate]
  cases DataKey.check data with
  | error fault => exact .inl ⟨.input fault, rfl, .inl rfl⟩
  | ok u =>
    split_ifs
    · cases touched with
      | zero => exact .inl ⟨.notFound entity, rfl, .inr (.inr ⟨rfl, rfl⟩)⟩
      | succ n => exact .inr ⟨n.succ_ne_zero, rfl⟩
    · exact .inl ⟨.store .closed, rfl, .inr (.inl rfl)⟩

/-- Replacing the data of an account fails, by its input, inside the ledger or because the account is
not there, or replaces the data of an account that is there. -/
theorem updateAccount_answer_cases (id : String) (data : Data) (l : Ledger) :
    (∃ fault, l.updateAccount id data = (.error fault, l) ∧
        (fault.category.faultClass = .invalidInput ∨ fault.category.faultClass = .internal ∨
          fault.category.faultClass = .notFound ∧ ¬ (l.store.tables.account? id).isSome = true)) ∨
      ((l.store.tables.account? id).isSome = true ∧
        l.updateAccount id data = (.ok (), { l with store := { l.store with
          tables := l.store.tables.withAccountData id data } })) := by
  rw [Tables.account?_isSome_iff_length, not_not]
  exact replaceData_answer_cases (.account id) data (fun s => s.updateAccountData id data)
    (l.store.updateAccountData_eq id data)

/-- Replacing the data of a transaction fails, by its input, inside the ledger or because the
transaction is not there, or replaces the data of a transaction that is there. -/
theorem updateTransaction_answer_cases (id : String) (data : Data) (l : Ledger) :
    (∃ fault, l.updateTransaction id data = (.error fault, l) ∧
        (fault.category.faultClass = .invalidInput ∨ fault.category.faultClass = .internal ∨
          fault.category.faultClass = .notFound ∧ ¬ (l.store.tables.header? id).isSome = true)) ∨
      ((l.store.tables.header? id).isSome = true ∧
        l.updateTransaction id data = (.ok (), { l with store := { l.store with
          tables := l.store.tables.withHeaderData id data } })) := by
  rw [Tables.header?_isSome_iff_length, not_not]
  exact replaceData_answer_cases (.transaction id) data (fun s => s.updateTransactionData id data)
    (l.store.updateTransactionData_eq id data)

end Ledger

namespace Http

/-! ## What a status tells of the tables -/

/-- The requests with the statuses under which they change the ledger. -/
inductive Request.Writes (r : Request) : Nat → Prop where
  | submitted : r.Asks "POST" "/v1/transactions" → Writes r 201
  | created : r.Asks "POST" "/v1/accounts" → Writes r 201
  | accountReplaced : r.Asks "PUT" "/v1/accounts" → Writes r 200
  | transactionReplaced : r.Asks "PUT" "/v1/transactions" → Writes r 200

/-- The status of the answer to a request tells what became of the tables. -/
structure Reports (clock : Clock) (r : Request) (before : Tables) (status : Nat) (after : Tables) :
    Prop where
  /-- A transaction is created exactly when its rows are added, and nothing else. -/
  created : r.Asks "POST" "/v1/transactions" → (status = 201 ↔
    ∃ t, Body.ofBytes Transaction.ofBody? r.body = .ok t ∧
      before.IsCommit t (t.timestamp.getD clock.now) after)
  /-- A transaction is a duplicate only if it is stored with the same lines. -/
  duplicate : r.Asks "POST" "/v1/transactions" → status = 202 →
    ∃ t, Body.ofBytes Transaction.ofBody? r.body = .ok t ∧
      (before.header? t.id).isSome = true ∧ t.lines.Perm (before.linesOf t.id)
  /-- A transaction is in conflict only if it is stored with other lines. -/
  conflict : r.Asks "POST" "/v1/transactions" → status = 409 →
    ∃ t, Body.ofBytes Transaction.ofBody? r.body = .ok t ∧
      (before.header? t.id).isSome = true ∧ ¬ t.lines.Perm (before.linesOf t.id)
  /-- An account is created exactly when its row is added, and nothing else. -/
  accountCreated : r.Asks "POST" "/v1/accounts" → (status = 201 ↔
    ∃ a, Body.ofBytes DataRequest.ofBody? r.body = .ok a ∧ after = before.withAccount a.id a.data)
  /-- An account is in conflict only if it is there. -/
  accountConflict : r.Asks "POST" "/v1/accounts" → status = 409 →
    ∃ a, Body.ofBytes DataRequest.ofBody? r.body = .ok a ∧ (before.account? a.id).isSome = true
  /-- The data of an account are replaced only if it is there, and nothing else is. -/
  accountReplaced : r.Asks "PUT" "/v1/accounts" → status = 200 →
    ∃ a, Body.ofBytes DataRequest.ofBody? r.body = .ok a ∧
      (before.account? a.id).isSome = true ∧ after = before.withAccountData a.id a.data
  /-- An account is not found only if it is not there. -/
  accountNotFound : r.Asks "PUT" "/v1/accounts" → status = 404 →
    ∃ a, Body.ofBytes DataRequest.ofBody? r.body = .ok a ∧ (before.account? a.id).isNone = true
  /-- The data of a transaction are replaced only if it is there, and nothing else is. -/
  transactionReplaced : r.Asks "PUT" "/v1/transactions" → status = 200 →
    ∃ a, Body.ofBytes DataRequest.ofBody? r.body = .ok a ∧
      (before.header? a.id).isSome = true ∧ after = before.withHeaderData a.id a.data
  /-- A transaction is not found only if it is not there. -/
  transactionNotFound : r.Asks "PUT" "/v1/transactions" → status = 404 →
    ∃ a, Body.ofBytes DataRequest.ofBody? r.body = .ok a ∧ (before.header? a.id).isNone = true
  /-- Every other response leaves the tables as they are. -/
  unchanged : ¬ r.Writes status → after = before

variable {token : Option String} {clock : Clock} {r : Request} {l : Ledger}

/-- A request for an action of the ledger is refused, or the action is performed. -/
theorem handle_of_asks (token : Option String) (clock : Clock) (l : Ledger) (action : Action)
    {method path : String} (hplace : action.place? = some (method, path))
    (h : r.Asks method path) :
    handle token clock r l = (refusal, l) ∨ handle token clock r l = perform clock r l action := by
  have hroute : route r.method (pathOf r.url) = .ledger (.ok action) :=
    (route_eq_iff_of_place hplace).mpr (by rw [h.1, h.2])
  unfold handle
  rw [hroute]
  dsimp only
  split_ifs
  · exact .inr rfl
  · exact .inl rfl

/-- A request with a body is malformed, or is served with what its body reads as. -/
theorem withBody_cases {α : Type} (shape? : Json.Fields → Option α) (r : Request) (l : Ledger)
    (serve : α → Response × Ledger) :
    (∃ fault, withBody shape? r l serve = (.ofFailure (.body fault), l)) ∨
      ∃ a, Body.ofBytes shape? r.body = .ok a ∧ withBody shape? r l serve = serve a := by
  unfold withBody
  split
  next a hbody => exact .inr ⟨a, hbody, rfl⟩
  next fault hbody => exact .inl ⟨fault, rfl⟩

/-- A request without the token has a status of its own. -/
theorem status_refusal : refusal.status = 401 := rfl

/-- A malformed body has a status of its own. -/
theorem status_malformed (fault : BodyFault) : (Response.ofFailure (.body fault)).status = 400 := rfl

/-- A fault of the ledger is answered with the status of its class. -/
theorem status_refused (fault : LedgerFault) :
    (refused fault).status = statusOf fault.category.faultClass := rfl

/-- A submission under a known id is answered by how its lines compare with those in the store. -/
theorem statusOfOutcome_verdict_cases (stored submitted : List Line) :
    (statusOfOutcome (Submission.verdict stored submitted) = 202 ∧ submitted.Perm stored) ∨
      (statusOfOutcome (Submission.verdict stored submitted) = 409 ∧ ¬ submitted.Perm stored) := by
  unfold Submission.verdict
  split_ifs with hsame
  · exact .inl ⟨rfl, ((Line.same_iff_perm _ _).mp hsame).symm⟩
  · exact .inr ⟨rfl, fun hperm => hsame ((Line.same_iff_perm _ _).mpr hperm.symm)⟩

/-- The response to a submission tells whether its transaction was created, and if not, how its lines
compare with those that are stored under its id. -/
theorem handle_submit_cases (token : Option String) (clock : Clock) (l : Ledger)
    (h : r.Asks "POST" "/v1/transactions") :
    let result := handle token clock r l
    (result.1.status ∉ [201, 202, 409] ∧ result.2.store = l.store) ∨
      ∃ t, Body.ofBytes Transaction.ofBody? r.body = .ok t ∧
        ((result.1.status = 201 ∧
            l.store.tables.IsCommit t (t.timestamp.getD clock.now) result.2.store.tables) ∨
          ((l.store.tables.header? t.id).isSome = true ∧ result.2.store = l.store ∧
            ((result.1.status = 202 ∧ t.lines.Perm (l.store.tables.linesOf t.id)) ∨
              (result.1.status = 409 ∧ ¬ t.lines.Perm (l.store.tables.linesOf t.id))))) := by
  dsimp only
  obtain hhandle | hhandle := handle_of_asks token clock l .submit rfl h
  · rw [hhandle, status_refusal]
    exact .inl ⟨by decide, rfl⟩
  · rw [hhandle]
    dsimp only [perform]
    obtain ⟨fault, hserved⟩ | ⟨t, ht, hserved⟩ := withBody_cases Transaction.ofBody? r l _
    · rw [hserved, status_malformed]
      exact .inl ⟨by decide, rfl⟩
    · rw [hserved]
      have hanswer := l.submit_answer_cases clock t
      have heffect := l.submit_all_or_nothing clock t
      generalize l.submit clock t = result at hanswer heffect
      obtain ⟨answer, next⟩ := result
      obtain ⟨fault, rfl, hclass⟩ | rfl | ⟨hpresent, rfl⟩ := hanswer
      · refine .inl ⟨?_, heffect.1 (by simp)⟩
        dsimp only
        rw [status_refused]
        obtain hclass | hclass := hclass <;> rw [hclass] <;> decide
      · exact .inr ⟨t, ht, .inl ⟨rfl, heffect.2 rfl⟩⟩
      · have hstore := heffect.1 (by simpa using Submission.verdict_ne_created _ _)
        exact .inr ⟨t, ht, .inr ⟨hpresent, hstore, statusOfOutcome_verdict_cases _ _⟩⟩

/-- Only a conflict has the status of one, and no class of faults has that of a creation. -/
theorem statusOf_not_mem_of_ne_conflict {c : FaultClass} (h : c ≠ .conflict) :
    statusOf c ∉ [201, 409] := by
  revert h
  cases c <;> decide

/-- The response to a request for a new account tells whether it was created, and if not, whether it
was there. -/
theorem handle_createAccount_cases (token : Option String) (clock : Clock) (l : Ledger)
    (h : r.Asks "POST" "/v1/accounts") :
    let result := handle token clock r l
    (result.1.status ∉ [201, 409] ∧ result.2.store = l.store) ∨
      ∃ a, Body.ofBytes DataRequest.ofBody? r.body = .ok a ∧
        ((result.1.status = 201 ∧
            result.2.store.tables = l.store.tables.withAccount a.id a.data) ∨
          (result.1.status = 409 ∧ (l.store.tables.account? a.id).isSome = true ∧
            result.2.store = l.store)) := by
  dsimp only
  obtain hhandle | hhandle := handle_of_asks token clock l .createAccount rfl h
  · rw [hhandle, status_refusal]
    exact .inl ⟨by decide, rfl⟩
  · rw [hhandle]
    dsimp only [perform]
    obtain ⟨fault, hserved⟩ | ⟨a, ha, hserved⟩ := withBody_cases DataRequest.ofBody? r l _
    · rw [hserved, status_malformed]
      exact .inl ⟨by decide, rfl⟩
    · rw [hserved]
      obtain ⟨fault, hfailed⟩ | ⟨-, -, -, hdone⟩ := l.createAccount_cases a.id a.data
      · rw [hfailed]
        dsimp only [changed]
        rw [status_refused]
        by_cases hconflict : fault.category.faultClass = .conflict
        · rw [hconflict]
          exact .inr ⟨a, ha, .inr ⟨rfl,
            Ledger.isSome_of_createAccount_conflict (by rw [hfailed]) hconflict, rfl⟩⟩
        · exact .inl ⟨statusOf_not_mem_of_ne_conflict hconflict, rfl⟩
      · rw [hdone]
        exact .inr ⟨a, ha, .inl ⟨rfl, rfl⟩⟩

/-- The response to a replacement of data tells whether it was made, and if not, whether there was
nothing to replace. -/
theorem handle_replacement_cases (token : Option String) (clock : Clock) {l : Ledger}
    (action : Action) {method path : String} (hplace : action.place? = some (method, path))
    (h : r.Asks method path) {IsThere : DataRequest → Prop} {tables : DataRequest → Tables}
    {replace : DataRequest → Except LedgerFault Unit × Ledger}
    (hperform : perform clock r l action =
      withBody DataRequest.ofBody? r l fun a => changed 200 (replace a))
    (hreplace : ∀ a, (∃ fault, replace a = (.error fault, l) ∧
        (fault.category.faultClass = .invalidInput ∨ fault.category.faultClass = .internal ∨
          fault.category.faultClass = .notFound ∧ ¬ IsThere a)) ∨
      (IsThere a ∧ replace a =
        (.ok (), { l with store := { l.store with tables := tables a } }))) :
    let result := handle token clock r l
    (result.1.status ∉ [200, 404] ∧ result.2.store = l.store) ∨
      ∃ a, Body.ofBytes DataRequest.ofBody? r.body = .ok a ∧
        ((result.1.status = 200 ∧ IsThere a ∧ result.2.store.tables = tables a) ∨
          (result.1.status = 404 ∧ ¬ IsThere a ∧ result.2.store = l.store)) := by
  dsimp only
  obtain hhandle | hhandle := handle_of_asks token clock l action hplace h
  · rw [hhandle, status_refusal]
    exact .inl ⟨by decide, rfl⟩
  · rw [hhandle, hperform]
    obtain ⟨fault, hserved⟩ | ⟨a, ha, hserved⟩ := withBody_cases DataRequest.ofBody? r l _
    · rw [hserved, status_malformed]
      exact .inl ⟨by decide, rfl⟩
    · rw [hserved]
      obtain ⟨fault, hfailed, hclass⟩ | ⟨hthere, hdone⟩ := hreplace a
      · rw [hfailed]
        dsimp only [changed]
        rw [status_refused]
        obtain hclass | hclass | ⟨hclass, habsent⟩ := hclass
        · exact .inl ⟨by rw [hclass]; decide, rfl⟩
        · exact .inl ⟨by rw [hclass]; decide, rfl⟩
        · exact .inr ⟨a, ha, .inr ⟨by rw [hclass]; rfl, habsent, rfl⟩⟩
      · rw [hdone]
        exact .inr ⟨a, ha, .inl ⟨rfl, hthere, rfl⟩⟩

/-- The response to a replacement of account data. -/
theorem handle_updateAccount_cases (token : Option String) (clock : Clock) (l : Ledger)
    (h : r.Asks "PUT" "/v1/accounts") :
    let result := handle token clock r l
    (result.1.status ∉ [200, 404] ∧ result.2.store = l.store) ∨
      ∃ a, Body.ofBytes DataRequest.ofBody? r.body = .ok a ∧
        ((result.1.status = 200 ∧ (l.store.tables.account? a.id).isSome = true ∧
            result.2.store.tables = l.store.tables.withAccountData a.id a.data) ∨
          (result.1.status = 404 ∧ ¬ (l.store.tables.account? a.id).isSome = true ∧
            result.2.store = l.store)) :=
  handle_replacement_cases token clock .updateAccount rfl h rfl
    fun a => l.updateAccount_answer_cases a.id a.data

/-- The response to a replacement of transaction data. -/
theorem handle_updateTransaction_cases (token : Option String) (clock : Clock) (l : Ledger)
    (h : r.Asks "PUT" "/v1/transactions") :
    let result := handle token clock r l
    (result.1.status ∉ [200, 404] ∧ result.2.store = l.store) ∨
      ∃ a, Body.ofBytes DataRequest.ofBody? r.body = .ok a ∧
        ((result.1.status = 200 ∧ (l.store.tables.header? a.id).isSome = true ∧
            result.2.store.tables = l.store.tables.withHeaderData a.id a.data) ∨
          (result.1.status = 404 ∧ ¬ (l.store.tables.header? a.id).isSome = true ∧
            result.2.store = l.store)) :=
  handle_replacement_cases token clock .updateTransaction rfl h rfl
    fun a => l.updateTransaction_answer_cases a.id a.data

/-- Reads of the ledger leave the store as it is. -/
theorem store_perform_of_place_eq_none (clock : Clock) (r : Request) (l : Ledger) {action : Action}
    (h : action.place? = none) : (perform clock r l action).2.store = l.store := by
  cases action with
  | createAccount | updateAccount | submit | updateTransaction => exact absurd h (by simp [Action.place?])
  | account | balance => rfl
  | search space =>
    dsimp only [perform, search]
    split
    · rfl
    next text _ =>
      have hstore : (l.search space text).2.store = l.store := by
        unfold Ledger.search
        split <;> rfl
      split
      next hsearch => rwa [hsearch] at hstore
      next hsearch => rwa [hsearch] at hstore

/-- A request without an action that has a place leaves the store as it is. -/
theorem store_handle_cases (token : Option String) (clock : Clock) (r : Request) (l : Ledger) :
    (handle token clock r l).2.store = l.store ∨
      ∃ (action : Action) (method path : String),
        action.place? = some (method, path) ∧ r.Asks method path := by
  unfold handle
  split
  · exact .inl rfl
  · exact .inl rfl
  · exact .inl rfl
  next action hroute =>
    split_ifs
    · cases action with
      | error status => exact .inl rfl
      | ok action =>
        cases hplace : action.place? with
        | none => exact .inl (store_perform_of_place_eq_none clock r l hplace)
        | some place =>
          obtain rfl := (route_eq_iff_of_place hplace).mp hroute
          exact .inr ⟨action, _, _, hplace, rfl, rfl⟩
    · exact .inl rfl

/-- The status of every answer tells what became of the tables. -/
theorem reports_handle (token : Option String) (clock : Clock) (r : Request) (l : Ledger) :
    Reports clock r l.store.tables (handle token clock r l).1.status
      (handle token clock r l).2.store.tables where
  created h := by
    obtain ⟨hstatus, hstore⟩ | ⟨t, ht, ⟨hstatus, hcommit⟩ | ⟨-, hstore, hstatus⟩⟩ :=
      handle_submit_cases token clock l h
    · rw [hstore]
      exact ⟨fun h => absurd (by simp [h]) hstatus, fun ⟨t, _, hcommit⟩ => absurd rfl hcommit.ne⟩
    · exact ⟨fun _ => ⟨t, ht, hcommit⟩, fun _ => hstatus⟩
    · rw [hstore]
      refine ⟨fun h => ?_, fun ⟨t, _, hcommit⟩ => absurd rfl hcommit.ne⟩
      obtain ⟨hstatus, -⟩ | ⟨hstatus, -⟩ := hstatus <;> simp [hstatus] at h
  duplicate h hduplicate := by
    obtain ⟨hstatus, -⟩ | ⟨t, ht, ⟨hstatus, -⟩ | ⟨hthere, -, ⟨-, hperm⟩ | ⟨hstatus, -⟩⟩⟩ :=
      handle_submit_cases token clock l h
    · exact absurd (by simp [hduplicate]) hstatus
    · simp [hstatus] at hduplicate
    · exact ⟨t, ht, hthere, hperm⟩
    · simp [hstatus] at hduplicate
  conflict h hconflict := by
    obtain ⟨hstatus, -⟩ | ⟨t, ht, ⟨hstatus, -⟩ | ⟨hthere, -, ⟨hstatus, -⟩ | ⟨-, hother⟩⟩⟩ :=
      handle_submit_cases token clock l h
    · exact absurd (by simp [hconflict]) hstatus
    · simp [hstatus] at hconflict
    · simp [hstatus] at hconflict
    · exact ⟨t, ht, hthere, hother⟩
  accountCreated h := by
    obtain ⟨hstatus, hstore⟩ | ⟨a, ha, ⟨hstatus, htables⟩ | ⟨hstatus, -, hstore⟩⟩ :=
      handle_createAccount_cases token clock l h
    · rw [hstore]
      exact ⟨fun h => absurd (by simp [h]) hstatus,
        fun ⟨a, _, htables⟩ => absurd htables.symm (Tables.withAccount_ne _ _ _)⟩
    · exact ⟨fun _ => ⟨a, ha, htables⟩, fun _ => hstatus⟩
    · rw [hstore]
      exact ⟨fun h => by simp [hstatus] at h,
        fun ⟨a, _, htables⟩ => absurd htables.symm (Tables.withAccount_ne _ _ _)⟩
  accountConflict h hconflict := by
    obtain ⟨hstatus, -⟩ | ⟨a, ha, ⟨hstatus, -⟩ | ⟨-, hthere, -⟩⟩ :=
      handle_createAccount_cases token clock l h
    · exact absurd (by simp [hconflict]) hstatus
    · simp [hstatus] at hconflict
    · exact ⟨a, ha, hthere⟩
  accountReplaced h hdone := by
    obtain ⟨hstatus, -⟩ | ⟨a, ha, ⟨-, hthere, htables⟩ | ⟨hstatus, -⟩⟩ :=
      handle_updateAccount_cases token clock l h
    · exact absurd (by simp [hdone]) hstatus
    · exact ⟨a, ha, hthere, htables⟩
    · simp [hstatus] at hdone
  accountNotFound h hnotFound := by
    obtain ⟨hstatus, -⟩ | ⟨a, ha, ⟨hstatus, -⟩ | ⟨-, habsent, -⟩⟩ :=
      handle_updateAccount_cases token clock l h
    · exact absurd (by simp [hnotFound]) hstatus
    · simp [hstatus] at hnotFound
    · exact ⟨a, ha, by simpa using habsent⟩
  transactionReplaced h hdone := by
    obtain ⟨hstatus, -⟩ | ⟨a, ha, ⟨-, hthere, htables⟩ | ⟨hstatus, -⟩⟩ :=
      handle_updateTransaction_cases token clock l h
    · exact absurd (by simp [hdone]) hstatus
    · exact ⟨a, ha, hthere, htables⟩
    · simp [hstatus] at hdone
  transactionNotFound h hnotFound := by
    obtain ⟨hstatus, -⟩ | ⟨a, ha, ⟨hstatus, -⟩ | ⟨-, habsent, -⟩⟩ :=
      handle_updateTransaction_cases token clock l h
    · exact absurd (by simp [hnotFound]) hstatus
    · simp [hstatus] at hnotFound
    · exact ⟨a, ha, by simpa using habsent⟩
  unchanged h := by
    obtain hstore | ⟨action, method, path, hplace, hasks⟩ := store_handle_cases token clock r l
    · rw [hstore]
    cases action with
    | submit =>
      obtain ⟨rfl, rfl⟩ := Prod.mk.inj (Option.some.inj hplace)
      obtain ⟨-, hstore⟩ | ⟨t, ht, ⟨hstatus, -⟩ | ⟨-, hstore, -⟩⟩ :=
        handle_submit_cases token clock l hasks
      · rw [hstore]
      · exact absurd (by rw [hstatus]; exact .submitted hasks) h
      · rw [hstore]
    | createAccount =>
      obtain ⟨rfl, rfl⟩ := Prod.mk.inj (Option.some.inj hplace)
      obtain ⟨-, hstore⟩ | ⟨a, ha, ⟨hstatus, -⟩ | ⟨-, -, hstore⟩⟩ :=
        handle_createAccount_cases token clock l hasks
      · rw [hstore]
      · exact absurd (by rw [hstatus]; exact .created hasks) h
      · rw [hstore]
    | updateAccount =>
      obtain ⟨rfl, rfl⟩ := Prod.mk.inj (Option.some.inj hplace)
      obtain ⟨-, hstore⟩ | ⟨a, ha, ⟨hstatus, -⟩ | ⟨-, -, hstore⟩⟩ :=
        handle_updateAccount_cases token clock l hasks
      · rw [hstore]
      · exact absurd (by rw [hstatus]; exact .accountReplaced hasks) h
      · rw [hstore]
    | updateTransaction =>
      obtain ⟨rfl, rfl⟩ := Prod.mk.inj (Option.some.inj hplace)
      obtain ⟨-, hstore⟩ | ⟨a, ha, ⟨hstatus, -⟩ | ⟨-, -, hstore⟩⟩ :=
        handle_updateTransaction_cases token clock l hasks
      · rw [hstore]
      · exact absurd (by rw [hstatus]; exact .transactionReplaced hasks) h
      · rw [hstore]
    | search | account | balance => exact absurd hplace (by simp [Action.place?])

/-! ## Faulty requests and failures inside the ledger -/

/-- Whether a request for an action is at fault by itself: its body does not read, a check of what it
says fails, or its query is rejected. -/
def Action.Faulty (r : Request) : Action → Prop
  | .createAccount => ∀ a, Body.ofBytes DataRequest.ofBody? r.body = .ok a →
      Text.isBlankText a.id = true ∨ ∃ key ∈ a.data.keys, ¬ DataKey.Matches key
  | .updateAccount | .updateTransaction => ∀ a, Body.ofBytes DataRequest.ofBody? r.body = .ok a →
      ∃ key ∈ a.data.keys, ¬ DataKey.Matches key
  | .submit => ∀ t, Body.ofBytes Transaction.ofBody? r.body = .ok t → ¬ t.Valid
  | .search space => ∀ text, Text.Utf8.decode? r.body = some text →
      ∃ fault, (Search.Query.ofText text >>= fun q => q.compile space) = .error fault
  | .account _ => False
  | .balance _ => ∀ text, cutoff? (queryOf r.url) = some text →
      ∃ fault, Cutoff.ofText text = .error fault

/-- A body that does not read, or reads as something that is refused in one way on every ledger, has
one response. -/
theorem exists_response_of_withBody {α : Type} {shape? : Json.Fields → Option α} {r : Request}
    {serve : Ledger → α → Response × Ledger}
    (h : ∀ a, Body.ofBytes shape? r.body = .ok a →
      ∃ fault, ∀ l, (serve l a).1 = refused (.input fault)) :
    ∃ response : Response, response.status = 400 ∧
      ∀ l, (withBody shape? r l (serve l)).1 = response := by
  unfold withBody
  cases hbody : Body.ofBytes shape? r.body with
  | error fault => exact ⟨.ofFailure (.body fault), rfl, fun _ => rfl⟩
  | ok a =>
    obtain ⟨fault, hfault⟩ := h a hbody
    exact ⟨refused (.input fault), rfl, hfault⟩

/-- A request that is at fault by itself has one response, whatever the ledger holds. -/
theorem exists_response_of_faulty {r : Request} {action : Action} (clock : Clock)
    (h : action.Faulty r) : ∃ response : Response, response.status = 400 ∧
      ∀ l, (perform clock r l action).1 = response := by
  cases action with
  | createAccount =>
    refine exists_response_of_withBody fun a ha => ?_
    obtain ⟨fault, hfault⟩ := Creation.exists_check_eq_error (h a ha)
    refine ⟨fault, fun l => ?_⟩
    rw [Ledger.createAccount, hfault]
    rfl
  | updateAccount =>
    refine exists_response_of_withBody fun a ha => ?_
    obtain ⟨fault, hfault⟩ := DataKey.exists_check_eq_error (h a ha)
    refine ⟨fault, fun l => ?_⟩
    rw [Ledger.updateAccount, Ledger.replaceData, hfault]
    rfl
  | updateTransaction =>
    refine exists_response_of_withBody fun a ha => ?_
    obtain ⟨fault, hfault⟩ := DataKey.exists_check_eq_error (h a ha)
    refine ⟨fault, fun l => ?_⟩
    rw [Ledger.updateTransaction, Ledger.replaceData, hfault]
    rfl
  | submit =>
    refine exists_response_of_withBody fun t ht => ?_
    obtain ⟨fault, hfault⟩ := Transaction.exists_validate_eq_error (h t ht)
    refine ⟨fault, fun l => ?_⟩
    rw [Ledger.submit, hfault]
  | search space =>
    dsimp only [perform, search]
    cases htext : Text.Utf8.decode? r.body with
    | none => exact ⟨refused (.query (.notText "not UTF-8")), rfl, fun _ => rfl⟩
    | some text =>
      obtain ⟨fault, hfault⟩ := h text htext
      refine ⟨refused (.query fault), rfl, fun l => ?_⟩
      simp only [Ledger.search, Search.answer_of_rejected hfault]
  | account id => exact h.elim
  | balance id =>
    dsimp only [perform, balance]
    cases htext : cutoff? (queryOf r.url) with
    | none => exact ⟨repeatedCutoff, rfl, fun _ => rfl⟩
    | some text =>
      obtain ⟨fault, hfault⟩ := h text htext
      exact ⟨refused (.input fault), rfl, fun l => by simp only [hfault]⟩

/-- The text of the answer to whatever goes wrong inside the ledger. -/
def internalText : String :=
  "\x7b\"error\":\x7b\"code\":500,\"message\":\"Internal server error\",\"type\":\"internal_error\"\x7d\x7d"

/-- A fault inside the ledger is answered without telling what went wrong. -/
theorem text_refused {fault : LedgerFault} (h : (refused fault).status = 500) :
    (refused fault).contentType = "application/json" ∧ (refused fault).text = internalText := by
  have hclass : fault.category.faultClass = .internal := by
    rw [status_refused] at h
    revert h
    cases fault.category.faultClass <;> decide
  have hsilent : (Problem.ledger fault.category fault.reason).isSilent = false := by
    rw [Problem.isSilent, hclass]
    rfl
  constructor
  · simp only [Response.contentType, refused, Response.ofFailure, Failure.problem, hsilent]
    rfl
  · simp only [Response.text, refused, Response.ofFailure, Failure.problem, Problem.body?, hsilent,
      Problem.envelope, Problem.status, Problem.publicMessage, Problem.type, hclass, if_true,
      Bool.false_eq_true, if_false]
    decide

/-- A failure inside the ledger is a fault of the ledger that is answered. -/
theorem exists_refused_of_internal {token : Option String} {clock : Clock} {r : Request} {l : Ledger}
    (h : (handle token clock r l).1.status = 500) :
    ∃ fault, (handle token clock r l).1 = refused fault := by
  unfold handle at h ⊢
  cases hroute : route r.method (pathOf r.url) with
  | unknown | ping | counters => simp [hroute, acknowledge, shown] at h
  | ledger action =>
    simp only [hroute] at h ⊢
    split_ifs at h ⊢
    · cases action with
      | ok action =>
        refine (perform_response_cases clock r l action).resolve_right fun hstatus => ?_
        simp [h] at hstatus
      | error status =>
        obtain rfl | rfl := status_of_route_error hroute <;> simp [acknowledge] at h
    · exact absurd (status_refusal.symm.trans h) (by decide)

/-- The status of every answer tells what became of the tables; what is wrong with a request itself is
answered in one way, whatever the ledger holds; and every failure inside the ledger has one text. -/
theorem status_reports_effect (token : Option String) (clock : Clock) (r : Request) (l : Ledger) :
    Reports clock r l.store.tables (handle token clock r l).1.status
        (handle token clock r l).2.store.tables ∧
      (∀ action, route r.method (pathOf r.url) = .ledger (.ok action) → action.Faulty r →
        ∃ response : Response, 400 ≤ response.status ∧ response.status < 500 ∧
          ∀ other, (handle token clock r other).1 = response) ∧
      ((handle token clock r l).1.status = 500 →
        (handle token clock r l).1.contentType = "application/json" ∧
          (handle token clock r l).1.text = internalText) := by
  refine ⟨reports_handle token clock r l, fun action hroute hfaulty => ?_, fun hinternal => ?_⟩
  · obtain ⟨response, hstatus, hresponse⟩ := exists_response_of_faulty clock hfaulty
    unfold handle
    simp only [hroute]
    split_ifs
    · exact ⟨response, by omega, by omega, hresponse⟩
    · exact ⟨refusal, by decide, by decide, fun _ => rfl⟩
  · obtain ⟨fault, hfault⟩ := exists_refused_of_internal hinternal
    rw [hfault] at hinternal ⊢
    exact text_refused hinternal

end Http

end DoubleEntry
