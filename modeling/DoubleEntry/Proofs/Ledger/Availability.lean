import DoubleEntry.Proofs.Ledger.Journal
import DoubleEntry.Proofs.Search.LongPatterns
import DoubleEntry.Proofs.Search.Lookup
import DoubleEntry.Proofs.Search.Pages
import DoubleEntry.Proofs.Search.Paths
import DoubleEntry.Proofs.Time.Order

/-!
# Availability of searches

A search fails when its document is faulty, in the same way on every store. Otherwise it succeeds on
every open store that a ledger has come to, if no data map in it nests too deep and no pattern of the
query is too long: what has been written can be read again, timestamps are written in canonical form,
and lines are gathered in pairs. Totals that do not fit stand in the way too. A data map that nests
too deep is accepted and stored all the same, and so is a query with a longer pattern.
-/

namespace DoubleEntry

open Amount (TotalsFit)
open Search (Constraint Namespace Query)
open Time (Timestamp)

/-- The data map that an event brings with it. -/
def Event.data? : Event → Option Data
  | .submit _ t => some t.data
  | .createAccount _ data | .updateAccount _ data | .updateTransaction _ data => some data
  | .account _ | .balanceAt _ _ | .search _ _ => none
  | .refuse _ | .allow _ | .close | .reopen => none

/-! ## Stored data -/

/-- Tables whose data texts all have a property. -/
structure Tables.AllData (P : Option String → Prop) (t : Tables) : Prop where
  accounts : ∀ row ∈ t.accounts, P (some row.data)
  headers : ∀ header ∈ t.headers, P header.data

namespace Tables.AllData

variable {P : Option String → Prop} {t : Tables}

/-- A transaction brings its data, and accounts with empty data. -/
theorem withTransaction (h : t.AllData P) (hempty : P (some AccountRow.emptyData))
    {txn : Transaction} (hdata : P (some txn.data.stored)) (at_ : Timestamp) :
    (t.withTransaction txn at_).AllData P where
  accounts := by
    intro row hrow
    rcases List.mem_append.mp hrow with hold | hadded
    · exact h.accounts row hold
    · obtain ⟨name, -, rfl⟩ := List.mem_map.mp hadded
      exact hempty
  headers := by
    intro header hheader
    rcases List.mem_append.mp hheader with hold | hadded
    · exact h.headers header hold
    · obtain rfl := List.mem_singleton.mp hadded
      exact hdata

/-- An account brings its data. -/
theorem withAccount (h : t.AllData P) (id : String) {data : Data} (hdata : P (some data.stored)) :
    (t.withAccount id data).AllData P where
  accounts := by
    intro row hrow
    rcases List.mem_append.mp hrow with hold | hadded
    · exact h.accounts row hold
    · obtain rfl := List.mem_singleton.mp hadded
      exact hdata
  headers := h.headers

/-- Data that replace others are brought along. -/
theorem withAccountData (h : t.AllData P) (id : String) {data : Data}
    (hdata : P (some data.stored)) : (t.withAccountData id data).AllData P where
  accounts := by
    intro row hrow
    obtain ⟨old, hold, rfl⟩ := List.mem_map.mp hrow
    split_ifs
    · exact hdata
    · exact h.accounts old hold
  headers := h.headers

/-- Data that replace others are brought along. -/
theorem withHeaderData (h : t.AllData P) (id : String) {data : Data}
    (hdata : P (some data.stored)) : (t.withHeaderData id data).AllData P where
  accounts := h.accounts
  headers := by
    intro header hheader
    obtain ⟨old, hold, rfl⟩ := List.mem_map.mp hheader
    split_ifs
    · exact hdata
    · exact h.headers old hold

/-- What has a property has every weaker one. -/
theorem imp {Q : Option String → Prop} (h : t.AllData P) (hweaker : ∀ text, P text → Q text) :
    t.AllData Q where
  accounts := fun row hrow => hweaker _ (h.accounts row hrow)
  headers := fun header hheader => hweaker _ (h.headers header hheader)

end Tables.AllData

namespace Ledger

variable {P : Option String → Prop} {l : Ledger}

/-- After an event the stored data are those from before, that of the event, and empty ones. -/
theorem allData_respond (h : l.store.tables.AllData P) (hempty : P (some AccountRow.emptyData))
    {e : Event} (he : ∀ data ∈ e.data?, P (some data.stored)) :
    (l.respond e).2.store.tables.AllData P := by
  cases e with
  | submit clock t =>
    change (l.submit clock t).2.store.tables.AllData P
    rcases submit_cases clock t l with ⟨-, hstore⟩ | ⟨-, -, -, hstore⟩
    · rwa [hstore]
    · rw [hstore]
      exact h.withTransaction hempty (he _ rfl) _
  | createAccount id data =>
    change (l.createAccount id data).2.store.tables.AllData P
    rcases createAccount_cases id data l with ⟨fault, hcall⟩ | ⟨-, -, -, hcall⟩
    · rwa [hcall]
    · rw [hcall]
      exact h.withAccount id (he _ rfl)
  | updateAccount id data =>
    change (l.updateAccount id data).2.store.tables.AllData P
    rcases updateAccount_cases id data l with ⟨fault, hcall⟩ | ⟨-, -, hcall⟩
    · rwa [hcall]
    · rw [hcall]
      exact h.withAccountData id (he _ rfl)
  | updateTransaction id data =>
    change (l.updateTransaction id data).2.store.tables.AllData P
    rcases updateTransaction_cases id data l with ⟨fault, hcall⟩ | ⟨-, -, hcall⟩
    · rwa [hcall]
    · rw [hcall]
      exact h.withHeaderData id (he _ rfl)
  | search collection text =>
    change (l.searchIn collection text).2.store.tables.AllData P
    rwa [store_searchIn]
  | account | balanceAt | refuse | allow | close | reopen => exact h

/-- After a history the stored data are those from before, those of the events, and empty ones. -/
theorem allData_run (h : l.store.tables.AllData P) (hempty : P (some AccountRow.emptyData))
    {events : List Event} (hevents : ∀ e ∈ events, ∀ data ∈ e.data?, P (some data.stored)) :
    (l.run events).2.store.tables.AllData P := by
  induction events generalizing l with
  | nil => exact h
  | cons e rest ih =>
    obtain ⟨he, hrest⟩ := List.forall_mem_cons.mp hevents
    exact ih (allData_respond h hempty he) hrest

end Ledger

/-! ## Readable tables -/

/-- Intact tables with data that can be read and totals that fit are readable. -/
theorem Tables.Intact.readable {t : Tables} (h : t.Intact) (hdata : t.AllData Data.IsReadable)
    (hfits : ∀ row ∈ t.accounts, TotalsFit (t.deltasOf row.id)) : t.Readable where
  nodup_accounts := h.nodup_accounts
  nodup_headers := h.nodup_headers
  balances := by
    intro row hrow
    cases htotal : Amount.total? (t.deltasOf row.id) with
    | none => exact absurd (hfits row hrow) (Amount.total?_eq_none_iff.mp htotal)
    | some balance => exact ⟨balance, htotal⟩
  account_data := hdata.accounts
  header_data := hdata.headers
  timestamps := fun header hheader => (h.timestamps header hheader).imp fun _ => And.left

/-- A ledger to which a history of a new one leads in which all data maps are documents, as those
that texts bring in are. A data map that nests deeper would be stored, but not be read again. -/
def Ledger.ReachableByDocuments (l : Ledger) : Prop :=
  ∃ metrics events, (∀ e ∈ events, ∀ data ∈ e.data?, (Json.object data).IsDocument) ∧
    l = (run ⟨.empty, metrics⟩ events).2

namespace Ledger.ReachableByDocuments

variable {l : Ledger}

/-- A ledger that documents lead to is one that can be reached. -/
theorem reachable (h : l.ReachableByDocuments) : l.Reachable := by
  obtain ⟨metrics, events, -, rfl⟩ := h
  exact ⟨metrics, events, rfl⟩

/-- The data that documents have brought are documents. -/
theorem allDocuments (h : l.ReachableByDocuments) :
    l.store.tables.AllData Data.IsDocumentText := by
  obtain ⟨metrics, events, hevents, rfl⟩ := h
  refine allData_run ⟨?_, ?_⟩ ?_ fun e he data hdata => ⟨data, rfl, hevents e he data hdata⟩
  · exact fun row hrow => absurd hrow List.not_mem_nil
  · exact fun header hheader => absurd hheader List.not_mem_nil
  · exact ⟨[], by rw [Data.stored_nil], fun _ hfield => absurd hfield List.not_mem_nil⟩

end Ledger.ReachableByDocuments

/-! ## Internal faults -/

namespace Search

variable {t : Tables} {fault : LedgerFault}

/-- A data map that cannot be read is no internal fault. -/
theorem category_ne_internal_of_ofStored {text : Option String}
    (h : Data.ofStored text = .error fault) : fault.category ≠ .internal := by
  unfold Data.ofStored at h
  repeat' split at h
  all_goals cases h
  simp [LedgerFault.category]

/-- A row whose timestamp can be read is not read with an internal fault. -/
theorem category_ne_internal_of_readTransaction {header : Header} {timestamp : Timestamp}
    (htimestamp : Timestamp.parse? header.timestamp = some timestamp)
    (h : readTransaction (transactionRow t header) = .error fault) :
    fault.category ≠ .internal := by
  rw [readTransaction_transactionRow, htimestamp] at h
  cases hdata : Data.ofStored header.data with
  | ok data => simp [hdata, Except.map] at h
  | error found =>
    simp only [hdata, Except.map, Except.error.injEq] at h
    exact h ▸ category_ne_internal_of_ofStored hdata

/-- On tables whose timestamps can be read no plan runs into an internal fault. -/
theorem category_ne_internal_of_plan {space : Namespace} {p : Plan} {s : Store}
    (htimestamps : ∀ header ∈ s.tables.headers,
      ∃ timestamp, Timestamp.parse? header.timestamp = some timestamp)
    (h : p.run space s = .error fault) : fault.category ≠ .internal := by
  rcases bind_eq_error_iff.mp h with hstore | ⟨t, ht, h⟩
  · obtain ⟨found, -, rfl⟩ := mapError_eq_error_iff.mp hstore
    simp [LedgerFault.category]
  have htables : t = s.tables := by
    have hcontents := mapError_eq_ok_iff.mp ht
    unfold Store.contents at hcontents
    split_ifs at hcontents
    exact (Except.ok.inj hcontents).symm
  subst htables
  cases space with
  | accounts =>
    rcases bind_eq_error_iff.mp h with hrows | ⟨rows, -, h⟩
    · obtain ⟨found, -, rfl⟩ := mapError_eq_error_iff.mp hrows
      simp [LedgerFault.category]
    · rcases bind_eq_error_iff.mp h with hread | ⟨_, -, h⟩
      · obtain ⟨row, -, hrow⟩ := exists_mem_of_mapM_eq_error hread
        rcases bind_eq_error_iff.mp hrow with hdata | ⟨_, -, hrow⟩
        · exact category_ne_internal_of_ofStored hdata
        · exact absurd hrow (by simp [pure, Except.pure])
      · exact absurd h (by simp [pure, Except.pure])
  | transactions =>
    rcases bind_eq_error_iff.mp h with hrows | ⟨headers, hheaders, h⟩
    · obtain ⟨found, -, rfl⟩ := mapError_eq_error_iff.mp hrows
      simp [LedgerFault.category]
    · rcases bind_eq_error_iff.mp h with hread | ⟨_, -, h⟩
      · obtain ⟨header, hheader, hrow⟩ := exists_mem_of_mapM_eq_error hread
        have hsublist := Plan.sublist_headers (mapError_eq_ok_iff.mp hheaders)
        obtain ⟨timestamp, htimestamp⟩ :=
          htimestamps header ((List.mergeSort_perm _ _).mem_iff.mp (hsublist.mem hheader))
        exact category_ne_internal_of_readTransaction htimestamp hrow
      · exact absurd h (by simp [pure, Except.pure])

/-- On tables whose timestamps can be read no search runs into an internal fault. -/
theorem category_ne_internal_of_run {space : Namespace} {text : String} {s : Store}
    (htimestamps : ∀ header ∈ s.tables.headers,
      ∃ timestamp, Timestamp.parse? header.timestamp = some timestamp)
    (h : run space text s = .error fault) : fault.category ≠ .internal := by
  rcases bind_eq_error_iff.mp h with hquery | ⟨q, -, h⟩
  · obtain ⟨found, -, rfl⟩ := mapError_eq_error_iff.mp hquery
    simp [LedgerFault.category]
  rcases bind_eq_error_iff.mp h with hplan | ⟨p, -, h⟩
  · obtain ⟨found, -, rfl⟩ := mapError_eq_error_iff.mp hplan
    simp [LedgerFault.category]
  exact category_ne_internal_of_plan htimestamps h

/-- On intact tables no search runs into an internal fault. -/
theorem category_ne_internal_of_answer {space : Namespace} {text : String} {s : Store}
    (hintact : s.tables.Intact) (h : answer space text s = .error fault) :
    fault.category ≠ .internal := by
  rcases answer_cases space text s with hrun | ⟨_, _, -, -, -, -, hlong⟩
  · refine category_ne_internal_of_run (fun header hheader => ?_) (hrun ▸ h)
    exact (hintact.timestamps header hheader).imp fun _ => And.left
  · obtain rfl := Except.error.inj (h.symm.trans hlong)
    simp [LedgerFault.category]

end Search

/-! ## Searches -/

/-- An accepted query runs on readable tables, whatever part of the result it asks for. -/
theorem Search.Query.exists_run {space : Namespace} {s : Store} (h : s.tables.Readable)
    (hopen : s.isOpen = true) {q : Query} {p : Search.Plan} (hplan : q.plan space = .ok p) :
    ∃ results, q.run space s = .ok results := by
  obtain ⟨-, -, hlimit, hoffset⟩ := Query.plan_eq_ok_iff.mp hplan
  have hmatches : p.MatchesTexts := Query.matchesTexts_of_plan hplan
  have hp : (p.bounded none none).MatchesTexts := hmatches
  obtain ⟨found, hfound, -⟩ := Search.Plan.run_of_readable h hopen space hp rfl rfl
  have hrun := Search.Plan.run_bounded rfl rfl hfound q.skip q.size
  rw [← hlimit, ← hoffset] at hrun
  exact ⟨_, by rw [Query.run, hplan]; exact hrun⟩

namespace Ledger

/-- A search is answered with what its document is answered with on the store. -/
theorem search_fst (space : Namespace) (text : String) (l : Ledger) :
    (l.search space text).1 = Search.answer space text l.store := by
  rw [search]
  cases Search.answer space text l.store <;> rfl

/-- A search whose document is rejected, by its reader or against the collection, fails with that
fault on every store. A search whose document is accepted looks only along well formed paths. On a
ledger that can be reached it never fails for what cannot happen inside, and it succeeds when the
store is open, no running total of an account leaves the range of amounts, no stored data map nests
too deep to be read, and no pattern of the query is too long. -/
theorem search_available (space : Namespace) (text : String) :
    (∀ fault, (Query.ofText text >>= fun q => q.compile space) = .error fault →
      ∀ l : Ledger, (l.search space text).1 = .error (.query fault)) ∧
    ∀ q statement, Query.ofText text = .ok q → q.compile space = .ok statement →
      (∃ plan : Search.Plan, statement = plan.statement space ∧
        ∀ c ∈ plan.conditions, c.IsWellFormed) ∧
      ∀ l : Ledger, l.Reachable →
        (∀ fault, (l.search space text).1 = .error fault → fault.category ≠ .internal) ∧
        (l.store.isOpen = true →
          (∀ row ∈ l.store.tables.accounts, TotalsFit (l.store.tables.deltasOf row.id)) →
          l.store.tables.AllData Data.IsDocumentText → q.PatternsFit →
          ∃ results, (l.search space text).1 = .ok results) := by
  refine ⟨fun fault hrejected l => ?rejected, fun q statement hquery haccepted => ?accepted⟩
  case rejected => rw [search_fst, Search.answer_of_rejected hrejected]
  case accepted =>
    obtain ⟨plan, hplan, rfl⟩ := map_eq_ok_iff.mp haccepted
    refine ⟨⟨plan, rfl, Query.isWellFormed_conditions hplan⟩, fun l hreachable => ⟨?_, ?_⟩⟩
    · intro fault hfault
      rw [search_fst] at hfault
      exact Search.category_ne_internal_of_answer hreachable.intact hfault
    · intro hopen hfits hdata hpatterns
      have hreadable := hreachable.intact.readable
        (hdata.imp fun _ => Data.IsDocumentText.isReadable) hfits
      obtain ⟨results, hrun⟩ := Query.exists_run hreadable hopen hplan
      refine ⟨results, ?_⟩
      rw [search_fst, Search.answer_eq_run hquery hpatterns, Search.run_eq, hquery]
      exact hrun

/-- The fields of a document that asks for accounts with an entry that contains a list. -/
def containingList (key : String) : Json.Fields :=
  [("must", .object [("terms", .array [.object [(key, .array [.integer 3, .null])]])])]

/-- An account with numbers in its data is created, and a payment is made to it. -/
def rated : List Event :=
  [.createAccount "a" [("rates", .array [.integer 3, .real (.finite false ⟨1, -1⟩)])],
    (Call.dated (.newYear 2000) "1" [⟨"a", 5⟩, ⟨"b", -5⟩]).event]

/-- A key with a blank is rejected by a store that is closed, and a key without is looked for. -/
theorem search_available_rated :
    (Query.ofText (Json.object (containingList "a rate")).render >>=
        fun q => q.compile .accounts) = .error (.invalidKey "a rate") ∧
      (search .accounts (Json.object (containingList "a rate")).render
        ⟨Store.empty.close, none⟩).1 = .error (.query (.invalidKey "a rate")) ∧
      ∃ q statement, Query.ofText (Json.object (containingList "rates")).render = .ok q ∧
        q.compile .accounts = .ok statement ∧ q.PatternsFit ∧
        (run ⟨.empty, none⟩ rated).2.Reachable ∧
        (run ⟨.empty, none⟩ rated).2.store.isOpen = true ∧
        (∀ row ∈ (run ⟨.empty, none⟩ rated).2.store.tables.accounts,
          TotalsFit ((run ⟨.empty, none⟩ rated).2.store.tables.deltasOf row.id)) ∧
        (run ⟨.empty, none⟩ rated).2.store.tables.AllData Data.IsDocumentText ∧
        ∃ results, ((run ⟨.empty, none⟩ rated).2.search .accounts
          (Json.object (containingList "rates")).render).1 = .ok results := by
  have hrejected : (Query.ofText (Json.object (containingList "a rate")).render >>=
      fun q => q.compile .accounts) = .error (.invalidKey "a rate") := by
    rw [Query.ofText_render rfl]
    rfl
  let asked : Constraint := .term "rates" (.array [.integer 3, .null])
  have hquery : Query.ofText (Json.object (containingList "rates")).render = .ok asked.query := by
    rw [Query.ofText_render rfl]
    rfl
  obtain ⟨statement, haccepted⟩ : ∃ statement, asked.query.compile .accounts = .ok statement :=
    ⟨_, rfl⟩
  have hpatterns : asked.query.PatternsFit := Query.patternsFit_query rfl
  have hdocuments : ∀ e ∈ rated, ∀ data ∈ e.data?, (Json.object data).IsDocument := by
    have hnumbers : ∀ v ∈ [Json.integer 3, .real (.finite false ⟨1, -1⟩)], v.FitsIn 125 :=
      List.forall_mem_cons.mpr ⟨rfl, List.forall_mem_singleton.mpr
        ⟨by decide, by decide, by decide⟩⟩
    refine List.forall_mem_cons.mpr ⟨?_, List.forall_mem_singleton.mpr ?_⟩
    · rintro data ⟨⟩
      exact List.forall_mem_singleton.mpr hnumbers
    · rintro data ⟨⟩
      exact fun _ hfield => absurd hfield List.not_mem_nil
  have hdata : (run ⟨.empty, none⟩ rated).2.store.tables.AllData Data.IsDocumentText :=
    ReachableByDocuments.allDocuments ⟨none, rated, hdocuments, rfl⟩
  have hreachable : (run ⟨.empty, none⟩ rated).2.Reachable := ⟨none, rated, rfl⟩
  have hopen : (run ⟨.empty, none⟩ rated).2.store.isOpen = true := by decide +kernel
  have hfits : ∀ row ∈ (run ⟨.empty, none⟩ rated).2.store.tables.accounts,
      TotalsFit ((run ⟨.empty, none⟩ rated).2.store.tables.deltasOf row.id) := by decide +kernel
  have hfound := (((search_available .accounts _).2 _ statement hquery haccepted).2 _
    hreachable).2 hopen hfits hdata hpatterns
  exact ⟨hrejected, (search_available _ _).1 _ hrejected _, _, statement, hquery, haccepted,
    hpatterns, hreachable, hopen, hfits, hdata, hfound⟩

/-- A new ledger on which an account is created whose data have one entry. -/
def withEntry (v : Json) : Ledger := (run ⟨.empty, none⟩ [.createAccount "x" [("k", v)]]).2

/-- The store is open and has the account and nothing else. -/
theorem store_withEntry (v : Json) :
    (withEntry v).store = ⟨⟨[⟨"x", Data.stored [("k", v)]⟩], [], []⟩, [], true⟩ := by
  have hcheck : Creation.check "x" [("k", v)] = .ok () := by
    have hkey : DataKey.isValid "k" = true := by decide +kernel
    have hid : Text.isBlankText "x" = false := by decide +kernel
    simp [Creation.check, hid, DataKey.check, Json.Fields.keys, hkey]
  have habsent : Store.accountExists .empty "x" = .ok false := rfl
  have hinsert : Store.insertAccount .empty "x" [("k", v)] =
      .ok ⟨⟨[⟨"x", Data.stored [("k", v)]⟩], [], []⟩, [], true⟩ := rfl
  change (createAccount "x" [("k", v)] ⟨.empty, none⟩).2.store = _
  simp only [createAccount, hcheck, Creation.settle, Creation.step, habsent, hinsert]

/-- A value that nests one array deeper than the entry of a data map that can be read. -/
def deepValue : Json := (fun v => Json.array [v])^[127] .null

/-- A data map with the value is stored as a text that cannot be read. -/
theorem exists_ofStored_deepValue : ∃ reason,
    Data.ofStored (some (Data.stored [("k", deepValue)])) = .error (.serialization reason) := by
  have hread : (Json.Reader.readBack? Json.Reader.strict 0
      (.object [("k", deepValue)])).isNone = true := by decide +kernel
  rw [Data.ofStored, Data.stored, Json.parse?_render, Option.isNone_iff_eq_none.mp hread]
  exact ⟨_, rfl⟩

/-- A search pattern with one byte more than it may have. -/
def longPattern : String := String.ofList (List.replicate (Search.Pattern.mostBytes + 1) '%')

/-- It is too long. -/
theorem isTooLong_longPattern : Search.Pattern.isTooLong longPattern = true := by
  have hbytes : ∀ n, (String.ofList (List.replicate n '%')).utf8ByteSize = n := by
    intro n
    rw [String.utf8ByteSize_ofList]
    induction n with
    | zero => rfl
    | succ n ih => rw [List.replicate_succ, String.utf8Len, ih]; rfl
  rw [Search.Pattern.isTooLong, longPattern, hbytes]
  exact decide_eq_true (Nat.lt_succ_self _)

/-- An account with data that nest too deep is created, and an accepted search for its id fails, since
the data cannot be read. An account with other data is created, and an accepted search for the ids
that match a pattern fails in the store, since the pattern is too long. -/
theorem search_unavailable :
    ((withEntry deepValue).Reachable ∧ (withEntry deepValue).store.isOpen = true ∧
      (∀ row ∈ (withEntry deepValue).store.tables.accounts,
        TotalsFit ((withEntry deepValue).store.tables.deltasOf row.id)) ∧
      (∃ statement, (Query.ofText (Constraint.documentWithId "x").render >>=
        fun q => q.compile .accounts) = .ok statement) ∧
      ∃ reason, ((withEntry deepValue).search .accounts
        (Constraint.documentWithId "x").render).1 = .error (.serialization reason)) ∧
    ((withEntry (.text "v")).Reachable ∧ (withEntry (.text "v")).store.isOpen = true ∧
      (∀ row ∈ (withEntry (.text "v")).store.tables.accounts,
        TotalsFit ((withEntry (.text "v")).store.tables.deltasOf row.id)) ∧
      (∃ statement, (Query.ofText (Constraint.fieldDocument "id" "like" (.text longPattern)).render >>=
        fun q => q.compile .accounts) = .ok statement) ∧
      ((withEntry (.text "v")).search .accounts
        (Constraint.fieldDocument "id" "like" (.text longPattern)).render).1 =
          .error (.store .patternTooLong)) := by
  have hreachable : ∀ v, (withEntry v).Reachable := fun v => ⟨none, _, rfl⟩
  have hopen : ∀ v, (withEntry v).store.isOpen = true := fun v => by rw [store_withEntry]
  have hfits : ∀ v, ∀ row ∈ (withEntry v).store.tables.accounts,
      TotalsFit ((withEntry v).store.tables.deltasOf row.id) := by
    intro v row _
    rw [store_withEntry]
    exact (by decide : TotalsFit [])
  have hid := Constraint.ofText_documentWithId "x"
  have hlike : Query.ofText (Constraint.fieldDocument "id" "like" (.text longPattern)).render =
      .ok (Constraint.field "id" "like" (.text longPattern)).query :=
    Constraint.ofText_fieldDocument "id" "like" rfl
  refine ⟨⟨hreachable _, hopen _, hfits _, ?_, ?_⟩, hreachable _, hopen _, hfits _, ?_, ?_⟩
  · rw [hid]
    exact ⟨_, rfl⟩
  · obtain ⟨reason, hreason⟩ := exists_ofStored_deepValue
    refine ⟨reason, ?_⟩
    rw [search_fst, Search.answer_eq_run hid (Query.patternsFit_query rfl), store_withEntry]
    let row : AccountRow := ⟨"x", Data.stored [("k", deepValue)]⟩
    have hrun : Search.run .accounts _ ⟨⟨[row], [], []⟩, [], true⟩ = _ :=
      Search.run_accounts_withId hid rfl (List.nodup_singleton "x") (List.mem_singleton.mpr rfl)
    rw [hrun, hreason]
    rfl
  · rw [hlike]
    exact ⟨_, rfl⟩
  · rw [search_fst, store_withEntry]
    exact Search.answer_of_isTooLong hlike isTooLong_longPattern rfl
      (List.mem_map_of_mem ((List.mergeSort_perm _ _).mem_iff.mpr (List.mem_singleton.mpr rfl)))

end Ledger

end DoubleEntry
