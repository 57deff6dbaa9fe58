import Vetting.Http.Message
import Vetting.Http.Status

/-!
The interface for those who run the desk: whether it is alive, and whether it takes requests.
-/

namespace Vetting.Api.Admin

open Http (Request Response)
open Text (utf8)

/-- A failure whose message is the phrase of its status. -/
def failure (status : UInt16) : Response := .failure status ((Http.phrase? status).getD "error")

def alive : Response := ⟨200, [], utf8 "ok\n"⟩

/-- Answers a request; `ready` tells whether the desk takes requests now. -/
def handle (ready : Bool) (r : Request) : Response :=
  if r.method ≠ "GET" then failure 405
  else if r.path = utf8 "/health" then alive
  else if r.path = utf8 "/ready" then if ready then alive else failure 503
  else failure 404

end Vetting.Api.Admin
