import Vetting.Core.Account
import Vetting.Core.JobDetail
import Vetting.Core.LogEntry
import Vetting.Service.Answer

/-!
What the desk asks of its services, and what they reply.
-/

namespace Vetting

/-- On whose behalf a product is asked. -/
structure Caller where
  apiKey : String
  job : UInt64
  member : UInt64
  company : UInt64
  deriving DecidableEq, Repr

inductive PartnerAnswer where
  | catalog (a : CatalogAnswer)
  | scoring (a : ScoringAnswer)
  deriving Inhabited

namespace PartnerAnswer

def data : PartnerAnswer → Option Json
  | .catalog a => a.data
  | .scoring a => a.data

def message : PartnerAnswer → String
  | .catalog a => a.message
  | .scoring a => a.plainMessage

def status : PartnerAnswer → UInt16
  | .catalog a => a.status
  | .scoring a => a.status

/-- The id of the partner's own log entry. Only the catalog keeps a log. -/
def transactionId : PartnerAnswer → Option String
  | .catalog a => if a.transactionId.isEmpty then none else some a.transactionId
  | .scoring _ => none

def toJson : PartnerAnswer → Json
  | .catalog a => Wire.Form.encode a
  | .scoring a => Wire.Form.encode a

end PartnerAnswer

inductive Call where
  | subscription (company : UInt64) (slug : String)
  | quota (q : QuotaQuery)
  | grades (company : UInt64)
  | createJob (r : JobRequest)
  | updateJob (job : UInt64) (u : JobUpdate)
  | processedCount (job : UInt64)
  /-- Writes an entry of the transaction log. -/
  | writeLog (e : LogEntry)
  /-- Marks the partner's own entry as a success. -/
  | confirmLog (transactionId : String)
  | listJobs (s : Scope) (slug : String) (f : JobListFilter)
  | jobDetails (s : Scope) (slug : String) (job : UInt64) (f : JobDetailFilter)
  | jobsSummary (s : Scope) (slug : String) (f : JobSummaryFilter)
  /-- Asks a product. -/
  | ask (route : Route) (caller : Caller) (body : Json)

/-- What a successful call brings back. -/
def Call.Reply : Call → Type
  | .subscription .. => Subscription
  | .quota .. => Int64
  | .grades .. => List Grade
  | .createJob .. => JobRef
  | .updateJob .. => Unit
  | .processedCount .. => UInt64
  | .writeLog .. => Unit
  | .confirmLog .. => Unit
  | .listJobs .. => CoreAnswer (List Job)
  | .jobDetails .. => CoreAnswer (List JobDetail)
  | .jobsSummary .. => CoreAnswer (List JobDetail)
  | .ask .. => PartnerAnswer

abbrev Call.Outcome (c : Call) : Type := Except ServiceError c.Reply

end Vetting
