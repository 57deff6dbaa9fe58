import Vetting.Json.Value
import Vetting.Product.Catalog

/-!
How a call of a service can fail.
-/

namespace Vetting

/-- A service answered, but reported failure. The body is kept for the services whose answers are
logged. -/
structure Rejection where
  status : UInt16
  message : String
  body : Option Json
  deriving Inhabited

inductive ServiceError where
  | unreachable (s : Service) (detail : String)
  | timedOut (s : Service)
  | undecodable (detail : String)
  | rejected (r : Rejection)
  | badAddress (detail : String)
  deriving Inhabited

namespace ServiceError

def message : ServiceError → String
  | .unreachable s detail => "request to " ++ s.name ++ " failed: " ++ detail
  | .timedOut s => "request to " ++ s.name ++ " timed out"
  | .undecodable detail => "could not parse upstream response: " ++ detail
  | .rejected r => "upstream responded with status " ++ toString r.status.toNat ++ ": " ++ r.message
  | .badAddress detail => "invalid upstream url: " ++ detail

/-- The status the service answered with, if it answered. -/
def status? : ServiceError → Option UInt16
  | .rejected r => some r.status
  | _ => none

end ServiceError

end Vetting
