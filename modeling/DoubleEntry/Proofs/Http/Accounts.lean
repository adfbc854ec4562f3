import DoubleEntry.Proofs.Http.Exchanges
import DoubleEntry.Proofs.Http.Segments
import DoubleEntry.Proofs.Ledger.Balances

/-!
# Accounts are read where they are asked for

An account that requests have brought is read under its id, whatever the id is made of, except for
one id: the word of the resource for searches, which takes the path and has no `GET`. What is read
are the exact sum of what was booked on the account and the data that were written for it last.
-/

namespace DoubleEntry.Http

open Amount (TotalsFit)
open Text.Percent (Escapes)
open Text.Utf8 (encode)

variable {token : Option String} {r : Request} {segment id : String}

/-- A request for the account of a segment is answered with the account of the id that the segment
has with escapes, unless the id is the word for searches. -/
theorem handle_account (hsegment : Encodes segment id) (hid : id ≠ "") (hmethod : r.method = "GET")
    (hurl : r.url = "/v1/accounts/" ++ segment) (hauthorized : isAuthorized token r = true)
    (clock : Clock) (l : Ledger) :
    handle token clock r l =
      if id = "_search" then (acknowledge 405, l) else (account id l, l) := by
  unfold handle
  rw [hmethod, hurl, route_account hsegment hid]
  dsimp only
  rw [if_pos hauthorized]
  split_ifs <;> rfl

/-- An account that is there is shown with the exact sum of its amounts and its data. -/
theorem exists_shown_account {l : Ledger} {exchanges : List (Arrival × Response)}
    (h : Served l exchanges) (hbrought : (writes exchanges).any (Write.brings id) = true)
    (hfits : TotalsFit (Write.booked id (writes exchanges))) :
    ∃ balance data, account id l = shown (Account.toJson ⟨id, balance, data⟩) ∧
      balance.toInt = Amount.sum (Write.booked id (writes exchanges)) ∧
      Data.ofStored (some (Write.lastData id (writes exchanges)).stored) = .ok data := by
  have hrow := h.told.account?_eq id
  rw [if_pos hbrought] at hrow
  obtain ⟨data, hdata⟩ :=
    (h.reachable.allDocuments.accounts _ (List.mem_of_find?_eq_some hrow)).isReadable
  cases htotal : Amount.total? (Write.booked id (writes exchanges)) with
  | none => exact absurd hfits (Amount.total?_eq_none_iff.mp htotal)
  | some balance =>
    refine ⟨balance, data, ?_, (Amount.total?_eq_some_iff.mp htotal).2, hdata⟩
    let row : AccountRow := ⟨id, (Write.lastData id (writes exchanges)).stored⟩
    have hfound : l.store.tables.account? row.id = some row := hrow
    have haccount := Ledger.account_of_row h.isOpen hfound
    rw [Tables.balance?, h.told.deltasOf_eq, htotal, hdata] at haccount
    unfold account
    rw [haccount]
    rfl

/-- Every account that requests to a new service have brought, by its creation or by a line of a
transaction, can be read as long as every running total of the amounts that were booked on it is an
amount, unless its id is the word for searches. It is asked for with its id as one segment of the
path, escaped in any way, and shown with its id, with the exact sum of its amounts and with its data.
These are what the ones that were written last read as once they are stored, and the same as these
when they have no doubles. -/
theorem account_read_back (metrics : Option Metrics) (arrivals : List Arrival)
    (hbrought : (writes (serve token ⟨.empty, metrics⟩ arrivals).1).any (Write.brings id) = true)
    (hfits : TotalsFit (Write.booked id (writes (serve token ⟨.empty, metrics⟩ arrivals).1)))
    (hsearch : id ≠ "_search") (hsegment : Encodes segment id) (hmethod : r.method = "GET")
    (hurl : r.url = "/v1/accounts/" ++ segment) (hauthorized : isAuthorized token r = true)
    (clock : Clock) :
    let run := serve token ⟨.empty, metrics⟩ arrivals
    let written := Write.lastData id (writes run.1)
    ∃ balance data,
      (handle token clock r run.2).1 = shown (Account.toJson ⟨id, balance, data⟩) ∧
      balance.toInt = Amount.sum (Write.booked id (writes run.1)) ∧
      Data.ofStored (some written.stored) = .ok data ∧
      ((Json.object written).IsIntegral → data = written) := by
  dsimp only
  have hserved := served_serve metrics token arrivals
  generalize serve token ⟨.empty, metrics⟩ arrivals = run at hbrought hfits hserved ⊢
  have hrow := hserved.told.account?_eq id
  rw [if_pos hbrought] at hrow
  have hid : id ≠ "" := by
    rintro rfl
    have hblank := hserved.reachable.reachable.intact.account_not_blank _
      (List.mem_of_find?_eq_some hrow)
    have hempty : Text.isBlankText "" = true := by decide
    exact absurd (hempty.symm.trans hblank) (by decide)
  obtain ⟨balance, data, hshown, hbalance, hdata⟩ := exists_shown_account hserved hbrought hfits
  refine ⟨balance, data, ?_, hbalance, hdata, fun hintegral => ?_⟩
  · rw [handle_account hsegment hid hmethod hurl hauthorized, if_neg hsearch]
    exact hshown
  · obtain hnone | hsubmitted := lastData_cases id run.1
    · rw [hnone, Data.stored_nil] at hdata
      rw [hnone]
      exact (Except.ok.inj hdata).symm
    · rw [hsubmitted.ofStored_stored hintegral] at hdata
      exact (Except.ok.inj hdata).symm

/-- A payment to an account whose id has a slash and a percent sign. -/
def payment : Request :=
  ⟨"POST", "/v1/transactions", [], encode ("\x7b\"id\":\"t\",\"lines\":[" ++
    "\x7b\"account\":\"a/b%\",\"delta\":5\x7d,\x7b\"account\":\"c\",\"delta\":-5\x7d]\x7d")⟩

/-- New data for this account. -/
def labelling : Request :=
  ⟨"PUT", "/v1/accounts", [], encode "\x7b\"id\":\"a/b%\",\"data\":\x7b\"k\":1\x7d\x7d"⟩

/-- The request for this account. -/
def inquiry : Request := ⟨"GET", "/v1/accounts/a%2Fb%25", [], []⟩

/-- The time of the examples. -/
def midnight : Clock := ⟨.newYear 2024, .zero false⟩

/-- The payment and then the new data. -/
def labelled : List Arrival := [⟨midnight, payment⟩, ⟨midnight, labelling⟩]

/-- The account of the payment is read with its balance and its new data. -/
theorem account_read_back_labelled :
    let run := serve none ⟨.empty, none⟩ labelled
    (writes run.1).any (Write.brings "a/b%") = true ∧
      TotalsFit (Write.booked "a/b%" (writes run.1)) ∧ Encodes "a%2Fb%25" "a/b%" ∧
      (handle none midnight inquiry run.2).1 =
        shown (Account.toJson ⟨"a/b%", 5, [("k", .integer 1)]⟩) := by
  dsimp only
  obtain ⟨hbrought, hbooked, hstored⟩ :
      (writes (serve none ⟨.empty, none⟩ labelled).1).any (Write.brings "a/b%") = true ∧
        Write.booked "a/b%" (writes (serve none ⟨.empty, none⟩ labelled).1) = [5] ∧
        (Write.lastData "a/b%" (writes (serve none ⟨.empty, none⟩ labelled).1)).stored =
          "\x7b\"k\":1\x7d" := by decide +kernel
  have hfits : TotalsFit (Write.booked "a/b%" (writes (serve none ⟨.empty, none⟩ labelled).1)) := by
    rw [hbooked]
    decide
  have hsegment : Encodes "a%2Fb%25" "a/b%" := by
    have hid : encode "a/b%" = [97, 47, 98, 37] := by decide +kernel
    have htext : encode "a%2Fb%25" = [97, 37, 50, 70, 98, 37, 50, 53] := by decide +kernel
    rw [Encodes, hid, htext]
    exact .plain (by decide) (.escape (by decide) (.plain (by decide) (.escape (by decide) .nil)))
  have hurl : inquiry.url = "/v1/accounts/" ++ "a%2Fb%25" := by decide +kernel
  obtain ⟨balance, data, hshown, hbalance, hdata, -⟩ := account_read_back none labelled hbrought
    hfits (by decide) hsegment rfl hurl rfl midnight
  rw [hbooked] at hbalance
  obtain rfl : balance = 5 := Int64.toInt_inj.mp hbalance
  rw [hstored] at hdata
  have hlabel : Data.ofStored (some "\x7b\"k\":1\x7d") = .ok [("k", .integer 1)] := by rfl
  obtain rfl := Except.ok.inj (hlabel.symm.trans hdata)
  exact ⟨hbrought, hfits, hsegment, hshown⟩

/-- A new account under the word for searches. -/
def reservation : Request :=
  ⟨"POST", "/v1/accounts", [], encode "\x7b\"id\":\"_search\",\"data\":\x7b\x7d\x7d"⟩

/-- An account under the word for searches is created and cannot be read. -/
theorem search_account_unreadable :
    let run := serve none ⟨.empty, none⟩ [⟨midnight, reservation⟩]
    (run.1.map fun exchange => exchange.2.status) = [201] ∧
      (writes run.1).any (Write.brings "_search") = true ∧
      TotalsFit (Write.booked "_search" (writes run.1)) ∧ Encodes "_search" "_search" ∧
      (handle none midnight ⟨"GET", "/v1/accounts/_search", [], []⟩ run.2).1 = acknowledge 405 := by
  dsimp only
  have hsegment : Encodes "_search" "_search" := Escapes.self (by decide +kernel)
  obtain ⟨hstatus, hbrought, hfits⟩ :
      ((serve none ⟨.empty, none⟩ [⟨midnight, reservation⟩]).1.map fun exchange =>
          exchange.2.status) = [201] ∧
        (writes (serve none ⟨.empty, none⟩ [⟨midnight, reservation⟩]).1).any
          (Write.brings "_search") = true ∧
        TotalsFit (Write.booked "_search"
          (writes (serve none ⟨.empty, none⟩ [⟨midnight, reservation⟩]).1)) := by decide +kernel
  refine ⟨hstatus, hbrought, hfits, hsegment, ?_⟩
  have hurl : "/v1/accounts/_search" = "/v1/accounts/" ++ "_search" := by decide +kernel
  rw [handle_account hsegment (by decide) rfl hurl rfl, if_pos rfl]

end DoubleEntry.Http
