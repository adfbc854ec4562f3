import DoubleEntry.Proofs.Http.Status

/-!
# What exchanges tell of accounts

The requests to a service and the statuses of its responses tell which accounts there are, which data
they have and what was booked on them: a status of success says that a request was carried out as its
body says, and every other one that it changed no account.
-/

namespace DoubleEntry.Http

/-! ## Writes -/

/-- What a request has written that accounts show. -/
inductive Write where
  /-- An account was created. -/
  | account (a : DataRequest)
  /-- The data of an account were replaced. -/
  | accountData (a : DataRequest)
  /-- A transaction was created, with the accounts of its lines. -/
  | transaction (t : Transaction)

namespace Write

/-- What was written in an exchange, as its status tells. -/
def of? (exchange : Arrival × Response) : Option Write :=
  let r := exchange.1.request
  let status := exchange.2.status
  if r.Asks "POST" "/v1/accounts" ∧ status = 201 then
    (Body.ofBytes DataRequest.ofBody? r.body).toOption.map account
  else if r.Asks "PUT" "/v1/accounts" ∧ status = 200 then
    (Body.ofBytes DataRequest.ofBody? r.body).toOption.map accountData
  else if r.Asks "POST" "/v1/transactions" ∧ status = 201 then
    (Body.ofBytes Transaction.ofBody? r.body).toOption.map transaction
  else none

/-- Whether there is an account after a write, even if there was none before. -/
def brings (id : String) : Write → Bool
  | account a => a.id = id
  | accountData _ => false
  | transaction t => id ∈ Line.accounts t.lines

/-- The data that were written for an account. -/
def data? (id : String) : Write → Option Data
  | account a | accountData a => if a.id = id then some a.data else none
  | transaction _ => none

/-- The amounts that were booked on an account. -/
def deltas (id : String) : Write → List Amount
  | account _ | accountData _ => []
  | transaction t => (t.lines.filter fun line => line.account = id).map Line.delta

/-- The data of an account after writes: those that were written last, and none at first. -/
def lastData (id : String) (writes : List Write) : Data :=
  (writes.filterMap (data? id)).getLast?.getD []

/-- The amounts that writes booked on an account, one write after another. -/
def booked (id : String) (writes : List Write) : List Amount := writes.flatMap (deltas id)

variable {id : String} {w : Write}

/-- What was written is what the body of the request reads as. -/
theorem of?_cases {exchange : Arrival × Response} (h : of? exchange = some w) :
    (∃ a, Body.ofBytes DataRequest.ofBody? exchange.1.request.body = .ok a ∧
        (w = .account a ∨ w = .accountData a)) ∨
      ∃ t, Body.ofBytes Transaction.ofBody? exchange.1.request.body = .ok t ∧
        w = .transaction t := by
  have hbody : ∀ {α : Type} {shape? : Json.Fields → Option α} {write : α → Write},
      (Body.ofBytes shape? exchange.1.request.body).toOption.map write = some w →
        ∃ a, Body.ofBytes shape? exchange.1.request.body = .ok a ∧ w = write a := by
    intro α shape? write h
    cases hread : Body.ofBytes shape? exchange.1.request.body with
    | ok a =>
      rw [hread] at h
      exact ⟨a, rfl, (Option.some.inj h).symm⟩
    | error fault =>
      rw [hread] at h
      exact absurd h (by simp [Except.toOption])
  unfold of? at h
  dsimp only at h
  split_ifs at h
  · exact .inl ((hbody h).imp fun a ha => ⟨ha.1, .inl ha.2⟩)
  · exact .inl ((hbody h).imp fun a ha => ⟨ha.1, .inr ha.2⟩)
  · exact .inr (hbody h)

/-- Data that are written are the last ones. -/
theorem lastData_append_of_eq_some {data : Data} (writes : List Write) (h : w.data? id = some data) :
    lastData id (writes ++ [w]) = data := by
  simp [lastData, h]

/-- A write without data leaves the last ones. -/
theorem lastData_append_of_eq_none (writes : List Write) (h : w.data? id = none) :
    lastData id (writes ++ [w]) = lastData id writes := by
  simp [lastData, h]

/-- The amounts of one more write come last. -/
theorem booked_append (id : String) (writes : List Write) (w : Write) :
    booked id (writes ++ [w]) = booked id writes ++ w.deltas id := by
  rw [booked, List.flatMap_append, List.flatMap_singleton]
  rfl

/-- One more write brings what it brings. -/
theorem any_append (id : String) (writes : List Write) (w : Write) :
    (writes ++ [w]).any (brings id) = (writes.any (brings id) || w.brings id) := by
  rw [List.any_append, List.any_cons, List.any_nil, Bool.or_false]

end Write

/-- What was written in some exchanges. -/
def writes (exchanges : List (Arrival × Response)) : List Write := exchanges.filterMap Write.of?

/-- The last data of an account came with a request, if any were written. -/
theorem lastData_cases (id : String) (exchanges : List (Arrival × Response)) :
    Write.lastData id (writes exchanges) = [] ∨
      (Write.lastData id (writes exchanges)).IsSubmitted := by
  rw [Write.lastData]
  cases hlast : ((writes exchanges).filterMap (Write.data? id)).getLast? with
  | none => exact .inl rfl
  | some data =>
    right
    obtain ⟨w, hw, hdata⟩ := List.mem_filterMap.mp (List.mem_of_getLast? hlast)
    obtain ⟨exchange, -, hwritten⟩ := List.mem_filterMap.mp hw
    obtain ⟨a, ha, rfl | rfl⟩ | ⟨t, -, rfl⟩ := Write.of?_cases hwritten
    · obtain ⟨-, rfl⟩ : a.id = id ∧ a.data = data := by simpa [Write.data?] using hdata
      exact .request ha
    · obtain ⟨-, rfl⟩ : a.id = id ∧ a.data = data := by simpa [Write.data?] using hdata
      exact .request ha
    · exact absurd hdata (by simp [Write.data?])

/-! ## Tables that writes tell -/

/-- Tables with the accounts that writes tell. -/
structure Told (writes : List Write) (t : Tables) : Prop where
  account?_eq : ∀ id, t.account? id =
    if writes.any (Write.brings id) then some ⟨id, (Write.lastData id writes).stored⟩ else none
  deltasOf_eq : ∀ id, t.deltasOf id = Write.booked id writes
  /-- No data are written for an account that is not there. -/
  no_data : ∀ id, writes.any (Write.brings id) = false → ∀ w ∈ writes, w.data? id = none

namespace Told

variable {writes : List Write} {t : Tables}

/-- Nothing was written on empty tables. -/
theorem nil : Told [] .empty where
  account?_eq _ := rfl
  deltasOf_eq _ := rfl
  no_data _ _ _ hw := absurd hw List.not_mem_nil

/-- An account is there when a write has brought it. -/
theorem isSome_iff (h : Told writes t) {id : String} :
    (t.account? id).isSome = true ↔ writes.any (Write.brings id) = true := by
  rw [h.account?_eq]
  split_ifs with hany <;> simp [hany]

/-- An account for which nothing was written has no data yet. -/
theorem lastData_eq_nil (h : Told writes t) {id : String}
    (hnone : writes.any (Write.brings id) = false) : Write.lastData id writes = [] := by
  rw [Write.lastData, List.filterMap_eq_nil_iff.mpr (h.no_data id hnone)]
  rfl

/-- When one more write has no data for accounts that are not there, then no write has. -/
theorem no_data_append (h : Told writes t) {w : Write}
    (hw : ∀ id, writes.any (Write.brings id) = false → w.brings id = false → w.data? id = none)
    (id : String) (hnone : (writes ++ [w]).any (Write.brings id) = false) :
    ∀ v ∈ writes ++ [w], v.data? id = none := by
  rw [Write.any_append, Bool.or_eq_false_iff] at hnone
  exact List.forall_mem_append.mpr
    ⟨h.no_data id hnone.1, List.forall_mem_singleton.mpr (hw id hnone.1 hnone.2)⟩

/-- An account that was not there is created. -/
theorem withAccount (h : Told writes t) {a : DataRequest} (habsent : t.account? a.id = none) :
    Told (writes ++ [.account a]) (t.withAccount a.id a.data) where
  account?_eq id := by
    rw [Tables.account?_withAccount, Write.any_append]
    by_cases hid : a.id = id
    · subst hid
      have hdata : (Write.account a).data? a.id = some a.data := if_pos rfl
      rw [habsent, Write.lastData_append_of_eq_some writes hdata]
      simp [Write.brings]
    · have hdata : (Write.account a).data? id = none := if_neg hid
      rw [Write.lastData_append_of_eq_none writes hdata, h.account?_eq]
      simp [Write.brings, hid]
  deltasOf_eq id := by
    rw [Write.booked_append]
    exact (h.deltasOf_eq id).trans (List.append_nil _).symm
  no_data := h.no_data_append fun id _ hbrings => if_neg (of_decide_eq_false hbrings)

/-- The data of an account that is there are replaced. -/
theorem withAccountData (h : Told writes t) {a : DataRequest}
    (hthere : (t.account? a.id).isSome = true) :
    Told (writes ++ [.accountData a]) (t.withAccountData a.id a.data) where
  account?_eq id := by
    have hbrings : (Write.accountData a).brings id = false := rfl
    rw [Tables.account?_withAccountData, h.account?_eq, Write.any_append, hbrings, Bool.or_false]
    by_cases hid : a.id = id
    · subst hid
      have hdata : (Write.accountData a).data? a.id = some a.data := if_pos rfl
      rw [Write.lastData_append_of_eq_some writes hdata, h.isSome_iff.mp hthere]
      simp
    · have hdata : (Write.accountData a).data? id = none := if_neg hid
      rw [Write.lastData_append_of_eq_none writes hdata]
      split_ifs
      · rw [Option.map_some, if_neg (Ne.symm hid)]
      · rfl
  deltasOf_eq id := by
    rw [Write.booked_append]
    exact (h.deltasOf_eq id).trans (List.append_nil _).symm
  no_data := by
    refine h.no_data_append fun id hnone _ => if_neg ?_
    rintro rfl
    exact absurd (h.isSome_iff.mp hthere) (by simp [hnone])

/-- A transaction is committed. -/
theorem commit (h : Told writes t) {txn : Transaction} {at_ : Time.Timestamp} {after : Tables}
    (hcommit : t.IsCommit txn at_ after) : Told (writes ++ [.transaction txn]) after where
  account?_eq id := by
    rw [hcommit.account?_eq, Write.lastData_append_of_eq_none writes rfl, h.account?_eq,
      Write.any_append]
    cases hany : writes.any (Write.brings id) with
    | true => rfl
    | false =>
      rw [h.lastData_eq_nil hany, Data.stored_nil]
      simp [Write.brings]
  deltasOf_eq id := by
    rw [hcommit.deltasOf_eq, h.deltasOf_eq, Write.booked_append]
    rfl
  no_data := h.no_data_append fun _ _ _ => rfl

/-- The data of transactions are none of accounts. -/
theorem withHeaderData (h : Told writes t) (id : String) (data : Data) :
    Told writes (t.withHeaderData id data) := ⟨h.account?_eq, h.deltasOf_eq, h.no_data⟩

/-- An exchange tells what it did to the accounts. -/
theorem exchange (h : Told writes t) {exchange : Arrival × Response} {after : Tables}
    (hreports : Reports exchange.1.clock exchange.1.request t exchange.2.status after)
    (hafter : after.HasKeys) : Told (writes ++ (Write.of? exchange).toList) after := by
  unfold Write.of?
  dsimp only
  split_ifs with haccount hdata htransaction
  · obtain ⟨a, hbody, rfl⟩ := (hreports.accountCreated haccount.1).mp haccount.2
    rw [hbody]
    refine h.withAccount ?_
    -- Otherwise there would be two rows under its id.
    have hnew : a.id ∉ t.accounts.map AccountRow.id := by
      have hnodup := hafter.accounts
      rw [Tables.withAccount, List.map_append] at hnodup
      intro hmem
      exact List.disjoint_of_nodup_append hnodup hmem (List.mem_singleton.mpr rfl)
    rw [← Tables.account?_isSome_iff] at hnew
    simpa using hnew
  · obtain ⟨a, hbody, hthere, rfl⟩ := hreports.accountReplaced hdata.1 hdata.2
    rw [hbody]
    exact h.withAccountData hthere
  · obtain ⟨txn, hbody, hcommit⟩ := (hreports.created htransaction.1).mp htransaction.2
    rw [hbody]
    exact h.commit hcommit
  · rw [Option.toList_none, List.append_nil]
    by_cases hwrites : exchange.1.request.Writes exchange.2.status
    · generalize hstatus : exchange.2.status = status at *
      cases hwrites with
      | submitted hasks => exact absurd ⟨hasks, rfl⟩ htransaction
      | created hasks => exact absurd ⟨hasks, rfl⟩ haccount
      | accountReplaced hasks => exact absurd ⟨hasks, rfl⟩ hdata
      | transactionReplaced hasks =>
        obtain ⟨a, -, -, rfl⟩ := hreports.transactionReplaced hasks rfl
        exact h.withHeaderData a.id a.data
    · rw [hreports.unchanged hwrites]
      exact h

end Told

/-! ## Runs of a service -/

/-- A change that fails or leaves the ledger with other tables leaves the store open. -/
theorem isOpen_changed {l : Ledger} (h : l.store.isOpen = true) (r : Request) (status : Nat)
    {answer : DataRequest → Except LedgerFault Unit × Ledger}
    (hanswer : ∀ a, (∃ fault, answer a = (.error fault, l)) ∨
      ∃ tables, answer a = (.ok (), { l with store := { l.store with tables := tables } })) :
    (withBody DataRequest.ofBody? r l fun a =>
      changed status (answer a)).2.store.isOpen = true := by
  refine withBody_preserves (P := fun next => next.store.isOpen = true) h fun _ a _ _ => ?_
  obtain ⟨fault, hfailed⟩ | ⟨tables, hdone⟩ := hanswer a
  · rwa [changed_snd, hfailed]
  · rwa [changed_snd, hdone]

/-- No request under `/v1` closes the store. -/
theorem isOpen_perform (clock : Clock) (r : Request) {l : Ledger} (h : l.store.isOpen = true)
    (action : Action) : (perform clock r l action).2.store.isOpen = true := by
  cases action with
  | createAccount =>
    exact isOpen_changed h r 201 fun a =>
      (l.createAccount_cases a.id a.data).imp_right fun hdone => ⟨_, hdone.2.2.2⟩
  | updateAccount =>
    exact isOpen_changed h r 200 fun a =>
      (l.updateAccount_cases a.id a.data).imp_right fun hdone => ⟨_, hdone.2.2⟩
  | updateTransaction =>
    exact isOpen_changed h r 200 fun a =>
      (l.updateTransaction_cases a.id a.data).imp_right fun hdone => ⟨_, hdone.2.2⟩
  | submit =>
    refine withBody_preserves (P := fun next => next.store.isOpen = true) h fun _ t _ _ => ?_
    have hnext : (l.submit clock t).2.store.isOpen = true := by
      obtain ⟨-, hstore⟩ | ⟨-, -, -, hstore⟩ := l.submit_cases clock t
      · rwa [hstore]
      · rwa [hstore]
    split
    next hanswer => rwa [hanswer] at hnext
    next hanswer => rwa [hanswer] at hnext
  | search | account | balance => rwa [store_perform_of_place_eq_none clock r l rfl]

/-- No request closes the store. -/
theorem isOpen_handle (token : Option String) (clock : Clock) (r : Request) {l : Ledger}
    (h : l.store.isOpen = true) : (handle token clock r l).2.store.isOpen = true := by
  unfold handle
  split
  · exact h
  · exact h
  · exact h
  · split_ifs
    · split
      · exact isOpen_perform clock r h _
      · exact h
    · exact h

/-- A ledger to which exchanges with a new service have led. -/
structure Served (l : Ledger) (exchanges : List (Arrival × Response)) : Prop where
  reachable : l.ReachableByDocuments
  isOpen : l.store.isOpen = true
  told : Told (writes exchanges) l.store.tables

/-- One more request is answered. -/
theorem Served.handle {l : Ledger} {exchanges : List (Arrival × Response)} (h : Served l exchanges)
    (token : Option String) (a : Arrival) :
    Served (Http.handle token a.clock a.request l).2
      (exchanges ++ [(a, (Http.handle token a.clock a.request l).1)]) where
  reachable := reachableByDocuments_handle h.reachable token a.clock a.request
  isOpen := isOpen_handle token a.clock a.request h.isOpen
  told := by
    have hreachable := reachableByDocuments_handle h.reachable token a.clock a.request
    have hreports := reports_handle token a.clock a.request l
    generalize Http.handle token a.clock a.request l = result at hreachable hreports ⊢
    have htold : Told (writes exchanges ++ (Write.of? (a, result.1)).toList) result.2.store.tables :=
      h.told.exchange hreports hreachable.reachable.intact.hasKeys
    rwa [writes, List.filterMap_append]

/-- More requests are answered. -/
theorem Served.serve {l : Ledger} {exchanges : List (Arrival × Response)} (h : Served l exchanges)
    (token : Option String) (arrivals : List Arrival) :
    Served (Http.serve token l arrivals).2 (exchanges ++ (Http.serve token l arrivals).1) := by
  induction arrivals generalizing l exchanges with
  | nil => rwa [Http.serve, List.append_nil]
  | cons a rest ih =>
    rw [serve_cons, List.append_cons]
    exact ih (h.handle token a)

/-- A service that starts with a new ledger has one whose accounts its exchanges tell. -/
theorem served_serve (metrics : Option Metrics) (token : Option String)
    (arrivals : List Arrival) :
    Served (serve token ⟨.empty, metrics⟩ arrivals).2
      (serve token ⟨.empty, metrics⟩ arrivals).1 := by
  have hnew : Served ⟨.empty, metrics⟩ [] := ⟨⟨metrics, [], by simp, rfl⟩, rfl, .nil⟩
  exact hnew.serve token arrivals

end DoubleEntry.Http
