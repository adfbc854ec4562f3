import DoubleEntry.Http.Url
import DoubleEntry.Search.Namespace

/-!
# Routes

Which request asks for what. The ledger lives under `/v1`: its resources are tried in the order of
the table, the first whose pattern fits the path takes the request, and a method that it has no
entry for is refused. Outside `/v1` there are two further requests, and everything else is unknown.
-/

namespace DoubleEntry.Http

/-- What a request under `/v1` asks for. -/
inductive Action where
  | createAccount
  | updateAccount
  | submit
  | updateTransaction
  | search (space : Search.Namespace)
  | account (id : String)
  | balance (id : String)
  deriving DecidableEq

/-- A segment of a pattern. -/
inductive Segment where
  | fixed (word : String)
  /-- Any segment that is not empty. -/
  | parameter
  deriving DecidableEq

/-- A pattern of paths and the actions of its methods, given the parameter of the path. -/
structure Resource where
  pattern : List Segment
  actions : List (String × (String → Action))

/-- The resources of the ledger. -/
def resources : List Resource :=
  [⟨[.fixed "accounts"],
      [("POST", fun _ => .createAccount), ("GET", fun _ => .search .accounts),
        ("PUT", fun _ => .updateAccount)]⟩,
    ⟨[.fixed "accounts", .fixed "_search"], [("POST", fun _ => .search .accounts)]⟩,
    ⟨[.fixed "accounts", .parameter, .fixed "balance"], [("GET", .balance)]⟩,
    ⟨[.fixed "accounts", .parameter], [("GET", .account)]⟩,
    ⟨[.fixed "transactions"],
      [("POST", fun _ => .submit), ("GET", fun _ => .search .transactions),
        ("PUT", fun _ => .updateTransaction)]⟩,
    ⟨[.fixed "transactions", .fixed "_search"], [("POST", fun _ => .search .transactions)]⟩]

/-- Whether a pattern fits segments. -/
def fits : List Segment → List String → Bool
  | [], [] => true
  | .fixed word :: pattern, s :: rest => s == word && fits pattern rest
  | .parameter :: pattern, s :: rest => !s.isEmpty && fits pattern rest
  | _, _ => false

/-- The segment at the place of the parameter, as a value. A pattern without one has no value. -/
def parameterOf : List Segment → List String → String
  | .parameter :: _, s :: _ => segmentValue s
  | .fixed _ :: pattern, _ :: rest => parameterOf pattern rest
  | _, _ => ""

/-- Where a request leads. -/
inductive Routing where
  | ping
  | counters
  /-- Under `/v1`, with the action unless the path or the method is refused. -/
  | ledger (action : Except Nat Action)
  | unknown

/-- The action for a method and segments, or the status of the refusal. -/
def actionFor (method : String) (segments : List String) : Except Nat Action :=
  match resources.find? fun r => fits r.pattern segments with
  | none => .error 404
  | some r =>
    match r.actions.lookup method with
    | none => .error 405
    | some action => .ok (action (parameterOf r.pattern segments))

/-- Where a request with the given method and path leads. -/
def route (method path : String) : Routing :=
  let segments := (Text.split '/' path.toList).map String.ofList
  match segments with
  | "" :: "v1" :: rest => .ledger (actionFor method rest)
  | ["", "ping"] => if method = "GET" then .ping else .unknown
  | ["", "metrics"] => if method = "GET" then .counters else .unknown
  | _ => .unknown

end DoubleEntry.Http
