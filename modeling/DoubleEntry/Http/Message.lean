import DoubleEntry.Http.Problem
import DoubleEntry.Json.Writer
import DoubleEntry.Metrics.Exposition

/-!
# Requests and responses

A request has a method, a URL, headers and bytes; a response has a status and a body, whose kind
fixes the content type.
-/

namespace DoubleEntry.Http

/-- A request. Headers stand in the order in which they were sent. -/
structure Request where
  method : String
  url : String
  headers : List (String × String)
  body : List UInt8

/-- The value of the first header with the given name, in either case, if it consists of visible
ASCII characters, spaces and tabs. -/
def Request.header? (r : Request) (name : String) : Option String :=
  let found := r.headers.find? fun h => h.1.toLower == name.toLower
  (found.map Prod.snd).filter fun value =>
    value.toList.all fun c => decide (0x20 ≤ c.toNat ∧ c.toNat ≤ 0x7E) || c == '\t'

/-- The body of a response. -/
inductive Body where
  | empty
  | json (value : Json)
  | plain (text : String)
  /-- The counters of a ledger, if it counts. -/
  | counters (metrics : Option Metrics)
  /-- What the caller is told about a failure. -/
  | failure (failure : Failure)

/-- A response. -/
structure Response where
  status : Nat
  body : Body

namespace Response

/-- The response to a request that failed. -/
def ofFailure (f : Failure) : Response := ⟨f.problem.status, .failure f⟩

/-- The content type. -/
def contentType (r : Response) : String :=
  match r.body with
  | .empty => ""
  | .json _ => "application/json"
  | .plain _ => "text/plain; charset=utf-8"
  | .counters _ => "text/plain; version=0.0.4"
  | .failure f => if f.problem.isSilent then "" else "application/json"

/-- The text of the body. -/
def text (r : Response) : String :=
  match r.body with
  | .empty => ""
  | .json value => value.render
  | .plain text => text
  | .counters metrics => (metrics.map Metrics.render).getD ""
  | .failure f => (f.problem.body?.map Json.render).getD ""

end Response

end DoubleEntry.Http
