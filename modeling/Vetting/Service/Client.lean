import Vetting.Desk.Metric
import Vetting.Service.Outgoing

/-!
Calls over a network. What becomes of a request is up to the network; the reply to a call is read
from the status and the body that came back. Every request that is made is timed.
-/

namespace Vetting

open Text (Bytes)

inductive NetworkFault where
  | timedOut
  | broken (detail : String)
  deriving DecidableEq, Repr

inductive Received where
  | nothing (f : NetworkFault)
  /-- A status; the body came, or broke off. -/
  | head (status : UInt16) (body : Except NetworkFault Bytes)

def NetworkFault.error (s : Service) : NetworkFault → ServiceError
  | .timedOut => .timedOut s
  | .broken detail => .unreachable s detail

namespace Client

/-- The data of an answer of the core service. -/
def payload (α : Type) [Wire.Form α] (status : UInt16) (body : Bytes) : Except ServiceError α :=
  (Envelope.parse (CoreAnswer α) status body).bind CoreAnswer.payload

/-- An answer that only tells that a call was carried out. -/
def receipt (status : UInt16) (body : Bytes) : Except ServiceError Unit :=
  (Envelope.parse (CoreAnswer Json) status body).map fun _ => ()

def read (status : UInt16) (body : Bytes) : (c : Call) → c.Outcome
  | .subscription .. => payload Subscription status body
  | .quota .. => (payload Quota status body).map (·.quota)
  | .grades .. => (Envelope.parse (CoreAnswer (List Grade)) status body).map fun a => a.data.getD []
  | .createJob .. => payload JobRef status body
  | .updateJob .. => receipt status body
  | .processedCount .. => (payload ProcessedCount status body).map (·.count)
  | .writeLog .. => receipt status body
  | .confirmLog .. => receipt status body
  | .listJobs .. => Envelope.parse (CoreAnswer (List Job)) status body
  | .jobDetails .. => Envelope.parse (CoreAnswer (List JobDetail)) status body
  | .jobsSummary .. => Envelope.parse (CoreAnswer (List JobDetail)) status body
  | .ask route _ _ =>
    match route with
    | .catalog _ => (Envelope.parse CatalogAnswer status body).map .catalog
    | .scoring _ => (Envelope.parse ScoringAnswer status body).map .scoring

/-- The outcome of a call for which something came back, and what is measured. -/
def settle (c : Call) : Received → c.Outcome × List Metric
  | .nothing f => (.error (f.error c.service), [.requestTime c.service "error"])
  | .head status body =>
    (match body with
      | .error f => .error (f.error c.service)
      | .ok b => read status b c,
      [.requestTime c.service (toString status.toNat)])

/-- Makes a call over a network. -/
def perform (a : Addresses) (send : Outgoing → Received) (c : Call) : c.Outcome × List Metric :=
  match Outgoing.ofCall a c with
  | .error e => (.error e, [])
  | .ok o => settle c (if o.isSendable then send o else .nothing (.broken "builder error"))

end Client

end Vetting
