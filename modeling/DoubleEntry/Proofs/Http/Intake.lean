import DoubleEntry.Http.Service
import DoubleEntry.Proofs.Ledger.Availability
import DoubleEntry.Proofs.Ledger.Metering

/-!
# What requests bring

The data maps that requests bring with them are parts of their bodies, and a body that is read is a
document. So a service that starts with a new ledger has, whatever it is asked, a ledger that
documents lead to.
-/

namespace DoubleEntry

/-- The ledger after one more event with a document is one that documents lead to. -/
theorem Ledger.ReachableByDocuments.respond {l : Ledger} (h : l.ReachableByDocuments) {e : Event}
    (he : ∀ data ∈ e.data?, (Json.object data).IsDocument) :
    (l.respond e).2.ReachableByDocuments := by
  obtain ⟨metrics, events, hevents, rfl⟩ := h
  refine ⟨metrics, events ++ [e], ?_, ?_⟩
  · exact List.forall_mem_append.mpr ⟨hevents, List.forall_mem_singleton.mpr he⟩
  · rw [run_append]
    rfl

/-- A body of bytes that is accepted was a document. -/
theorem Body.exists_document_of_ofBytes {α : Type} {shape? : Json.Fields → Option α}
    {bytes : List UInt8} {a : α} (h : Body.ofBytes shape? bytes = .ok a) :
    ∃ body, (Json.object body).IsDocument ∧ shape? body = some a := by
  obtain ⟨text, body, hparse, hshape⟩ := Body.exists_parse?_of_ofBytes h
  exact ⟨body, Json.isDocument_of_parse? hparse, hshape⟩

namespace Http

variable {l : Ledger}

/-- What is served from a body keeps what serving a document keeps. -/
theorem withBody_preserves {P : Ledger → Prop} (h : P l) {α : Type}
    {shape? : Json.Fields → Option α} {r : Request} {serve : α → Response × Ledger}
    (hserve : ∀ body a, (Json.object body).IsDocument → shape? body = some a → P (serve a).2) :
    P (withBody shape? r l serve).2 := by
  unfold withBody
  split
  next a hbody =>
    obtain ⟨body, hdocument, hshape⟩ := Body.exists_document_of_ofBytes hbody
    exact hserve body a hdocument hshape
  next => exact h

/-- A change of the ledger is answered after it was made. -/
theorem changed_snd (status : Nat) (answer : Except LedgerFault Unit × Ledger) :
    (changed status answer).2 = answer.2 := by
  obtain ⟨_ | _, l⟩ := answer <;> rfl

/-- A change whose event has the data map of the request leads to a ledger that documents lead
to. -/
theorem reachableByDocuments_changed (h : l.ReachableByDocuments) (r : Request) (status : Nat)
    (event : DataRequest → Event) (hdata : ∀ a, (event a).data? = some a.data)
    {answer : DataRequest → Except LedgerFault Unit × Ledger}
    (hanswer : ∀ a, (answer a).2 = (l.respond (event a)).2) :
    (withBody DataRequest.ofBody? r l fun a =>
      changed status (answer a)).2.ReachableByDocuments := by
  refine withBody_preserves h fun body a hbody hshape => ?_
  rw [changed_snd, hanswer]
  refine h.respond ?_
  rw [hdata]
  rintro data ⟨⟩
  exact Data.isDocument_of_ofBody? hbody (DataRequest.data_of_ofBody? hshape)

/-- A request under `/v1` leads to a ledger that documents lead to. -/
theorem reachableByDocuments_perform (h : l.ReachableByDocuments) (clock : Clock) (r : Request)
    (action : Action) : (perform clock r l action).2.ReachableByDocuments := by
  cases action with
  | createAccount =>
    exact reachableByDocuments_changed h r _ (fun a => .createAccount a.id a.data)
      (fun _ => rfl) fun _ => rfl
  | updateAccount =>
    exact reachableByDocuments_changed h r _ (fun a => .updateAccount a.id a.data)
      (fun _ => rfl) fun _ => rfl
  | updateTransaction =>
    exact reachableByDocuments_changed h r _ (fun a => .updateTransaction a.id a.data)
      (fun _ => rfl) fun _ => rfl
  | submit =>
    refine withBody_preserves h fun body t hbody hshape => ?_
    have hnext : (l.submit clock t).2.ReachableByDocuments := by
      refine h.respond (e := .submit clock t) ?_
      rintro data ⟨⟩
      exact Data.isDocument_of_ofBody? hbody (Transaction.data_of_ofBody? hshape)
    split
    next hanswer => rwa [hanswer] at hnext
    next hanswer => rwa [hanswer] at hnext
  | search space =>
    unfold perform search
    dsimp only
    split
    · exact h
    next text _ =>
      have hnext : (l.searchIn space.name text).2.ReachableByDocuments :=
        h.respond (e := .search space.name text) (by simp [Event.data?])
      have hname : Search.Namespace.ofName space.name = .ok space :=
        Search.Namespace.ofName_eq_ok_iff.mpr rfl
      rw [Ledger.searchIn, hname] at hnext
      dsimp only at hnext
      split
      next hanswer => rwa [hanswer] at hnext
      next hanswer => rwa [hanswer] at hnext
  | account id => exact h
  | balance id => exact h

/-- Every request leads to a ledger that documents lead to. -/
theorem reachableByDocuments_handle (h : l.ReachableByDocuments) (token : Option String)
    (clock : Clock) (r : Request) : (handle token clock r l).2.ReachableByDocuments := by
  unfold handle
  split
  · exact h
  · exact h
  · exact h
  · split_ifs
    · split
      · exact reachableByDocuments_perform h clock r _
      · exact h
    · exact h

/-- A service that starts with a new ledger comes only to ledgers that documents lead to. -/
theorem reachableByDocuments_handleAll (metrics : Option Metrics) (token : Option String)
    (clock : Clock) (requests : List Request) :
    (handleAll token clock ⟨.empty, metrics⟩ requests).2.ReachableByDocuments := by
  have hnew : (⟨.empty, metrics⟩ : Ledger).ReachableByDocuments := ⟨metrics, [], by simp, rfl⟩
  generalize (⟨.empty, metrics⟩ : Ledger) = l at hnew
  induction requests generalizing l with
  | nil => exact hnew
  | cons r rest ih => exact ih _ (reachableByDocuments_handle hnew token clock r)

end Http

end DoubleEntry
