import DoubleEntry.Config.Service
import DoubleEntry.Cutoff
import DoubleEntry.Http.Message
import DoubleEntry.Http.Route
import DoubleEntry.Ledger.Access
import DoubleEntry.Ledger.Creation
import DoubleEntry.Ledger.Submission

/-!
# Serving requests

`handle` answers one request and gives the ledger afterwards. Under `/v1` the token is checked
before anything else; then the body is read, the ledger is asked, and its answer becomes a status.
-/

namespace DoubleEntry.Http

open Time (Timestamp)

/-- The header that carries the token. -/
def tokenHeader : String := "LEDGER-AUTH-TOKEN"

/-- Whether a request carries the token, if one is needed. -/
def isAuthorized (token : Option String) (r : Request) : Bool :=
  match effectiveToken token with
  | none => true
  | some expected => Text.trimmed ((r.header? tokenHeader).getD "") == expected

/-- The response to a finished change without anything to tell. -/
def acknowledge (status : Nat) : Response := ⟨status, .empty⟩

/-- The response with a JSON value. -/
def shown (v : Json) : Response := ⟨200, .json v⟩

/-- The response to a fault of the ledger. -/
def refused (fault : LedgerFault) : Response := .ofFailure (.ledger fault)

/-- The status of an outcome. -/
def statusOfOutcome : Outcome → Nat
  | .created => 201
  | .duplicate => 202
  | .conflict => 409

/-- Continues with the body of a request, if it reads. -/
def withBody {α : Type} (shape? : Json.Fields → Option α) (r : Request) (l : Ledger)
    (serve : α → Response × Ledger) : Response × Ledger :=
  match Body.ofBytes shape? r.body with
  | .ok a => serve a
  | .error fault => (.ofFailure (.body fault), l)

/-- The response to a change of the ledger. -/
def changed (status : Nat) : Except LedgerFault Unit × Ledger → Response × Ledger
  | (.ok (), l) => (acknowledge status, l)
  | (.error fault, l) => (refused fault, l)

/-- A transaction of a search as JSON. -/
def postedJson (t : Search.PostedTransaction) : Json :=
  .object [("data", .object t.data), ("id", .text t.id),
    ("lines", .array (t.lines.map Line.toJson)), ("timestamp", .text t.timestamp.render)]

/-- The rows of a search as JSON. -/
def resultsJson : Search.Results → List Json
  | .accounts rows => rows.map Account.toJson
  | .transactions rows => rows.map postedJson

/-- Answers a search. -/
def search (space : Search.Namespace) (r : Request) (l : Ledger) : Response × Ledger :=
  match Text.Utf8.decode? r.body with
  | none => (refused (.query (.notText "not UTF-8")), l)
  | some text =>
    match l.search space text with
    | (.ok results, l) => (shown (.array (resultsJson results)), l)
    | (.error fault, l) => (refused fault, l)

/-- Answers a request for an account. -/
def account (id : String) (l : Ledger) : Response :=
  match l.account id with
  | .ok a => shown a.toJson
  | .error fault => refused fault

/-- The cutoff in a query: `none` when it is given more than once. -/
def cutoff? (fields : List (String × String)) : Option (Option String) :=
  match (fields.filter fun f => f.1 == "on").map Prod.snd with
  | [] => some none
  | [value] => some (some value)
  | _ => none

/-- The response to a query that gives the cutoff more than once. -/
def repeatedCutoff : Response :=
  ⟨400, .plain "Query deserialize error: duplicate field \x60on\x60"⟩

/-- Answers a request for a balance. -/
def balance (clock : Clock) (id : String) (r : Request) (l : Ledger) : Response :=
  match cutoff? (queryOf r.url) with
  | none => repeatedCutoff
  | some text =>
    match Cutoff.ofText text with
    | .error fault => refused (.input fault)
    | .ok cutoff =>
      let on := cutoff.getD clock.now
      match l.balanceAt id on with
      | .ok amount =>
        shown (.object [("account_id", .text id), ("balance", .ofAmount amount),
          ("on", .text on.render)])
      | .error fault => refused fault

/-- Answers a request under `/v1`. -/
def perform (clock : Clock) (r : Request) (l : Ledger) : Action → Response × Ledger
  | .createAccount =>
    withBody DataRequest.ofBody? r l fun a => changed 201 (l.createAccount a.id a.data)
  | .updateAccount =>
    withBody DataRequest.ofBody? r l fun a => changed 200 (l.updateAccount a.id a.data)
  | .updateTransaction =>
    withBody DataRequest.ofBody? r l fun a => changed 200 (l.updateTransaction a.id a.data)
  | .submit =>
    withBody Transaction.ofBody? r l fun t =>
      match l.submit clock t with
      | (.ok outcome, l) => (acknowledge (statusOfOutcome outcome), l)
      | (.error fault, l) => (refused fault, l)
  | .search space => search space r l
  | .account id => (account id l, l)
  | .balance id => (balance clock id r l, l)

/-- Answers a request. -/
def handle (token : Option String) (clock : Clock) (r : Request) (l : Ledger) :
    Response × Ledger :=
  match route r.method (pathOf r.url) with
  | .unknown => (acknowledge 404, l)
  | .ping => (shown (.object [("ping", .text "pong")]), l)
  | .counters => (⟨200, .counters l.metrics⟩, l)
  | .ledger action =>
    if isAuthorized token r then
      match action with
      | .ok action => perform clock r l action
      | .error status => (acknowledge status, l)
    else (.ofFailure .unauthorized, l)

/-- Answers requests one after another. -/
def handleAll (token : Option String) (clock : Clock) (l : Ledger) :
    List Request → List Response × Ledger
  | [] => ([], l)
  | r :: rest =>
    let (response, l) := handle token clock r l
    let (more, l) := handleAll token clock l rest
    (response :: more, l)

end DoubleEntry.Http
