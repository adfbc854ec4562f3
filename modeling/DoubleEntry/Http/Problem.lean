import DoubleEntry.Body
import DoubleEntry.Fault

/-!
# Failed requests

What a caller is told about a request that failed: a status and, unless the request was a search
that was refused, a JSON envelope with the status, a message and a type. Whatever goes wrong inside
the ledger has one and the same message.
-/

namespace DoubleEntry.Http

/-- Why a request failed, as far as the answer depends on it. -/
inductive Problem where
  /-- The body is not what it should be. -/
  | malformedBody (reason : String)
  /-- The token is missing or wrong. -/
  | unauthorized
  /-- The ledger refused the request or failed. -/
  | ledger (category : Category) (reason : String)
  deriving DecidableEq

/-- The status of a class of faults. -/
def statusOf : FaultClass → Nat
  | .invalidInput | .invalidQuery => 400
  | .invalidNamespace | .notFound => 404
  | .conflict => 409
  | .internal => 500

/-- Whether callers of a search learn no more than the status. -/
def isSilent : FaultClass → Bool
  | .invalidQuery | .invalidNamespace => true
  | _ => false

namespace Problem

/-- The full message of a problem, which is not for callers. -/
def message : Problem → String
  | malformedBody reason => "Malformed request body: " ++ reason
  | unauthorized => "Unauthorized access"
  | ledger category reason => category.message reason

/-- The message for callers. -/
def publicMessage : Problem → String
  | ledger category reason =>
    if category.faultClass = .internal then "Internal server error" else category.message reason
  | p => p.message

/-- The status of the answer. -/
def status : Problem → Nat
  | malformedBody _ => 400
  | unauthorized => 401
  | ledger category _ => statusOf category.faultClass

/-- The type of a problem in the answer. -/
def type : Problem → String
  | malformedBody _ => "malformed_body"
  | unauthorized => "unauthorized"
  | ledger category _ => category.faultClass.code

/-- Whether the answer has no envelope. -/
def isSilent : Problem → Bool
  | ledger category _ => Http.isSilent category.faultClass
  | _ => false

/-- The JSON envelope of the answer. -/
def envelope (p : Problem) : Json :=
  .object [("error", .object [("code", .integer p.status), ("message", .text p.publicMessage),
    ("type", .text p.type)])]

/-- The JSON body of the answer, if it has one. -/
def body? (p : Problem) : Option Json := if p.isSilent then none else some p.envelope

end Problem

/-- Why a request failed, with the cause in full. -/
inductive Failure where
  | body (fault : BodyFault)
  | unauthorized
  | ledger (fault : LedgerFault)

/-- What the answer depends on. -/
def Failure.problem : Failure → Problem
  | body fault => .malformedBody fault.reason
  | unauthorized => .unauthorized
  | ledger fault => .ledger fault.category fault.reason

end DoubleEntry.Http
