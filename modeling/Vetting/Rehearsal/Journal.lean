import Vetting.Bulk.Run

/-!
Calls as they are written down in a rehearsal: a name and arguments. Times are left out of them.
-/

namespace Vetting.Rehearsal

open Wire (Form)

def word (n : UInt64) : Json := Json.ofNat n.toNat

def scopeJson (s : Scope) : Json :=
  Json.object [("member_id", word s.member), ("company_id", word s.company),
    ("tier_level", word s.tier)]

/-- The members of an object without some keys. -/
def without (keys : List String) : Json → Json
  | .obj members => .obj (members.filter fun m => !keys.contains m.1)
  | j => j

def logJson (e : LogEntry) : Json := without ["request_time", "response_time"] (Form.encode e)

def callName : Call → String
  | .subscription .. => "subscribed_product"
  | .quota .. => "remaining_quota"
  | .grades .. => "grades"
  | .createJob .. => "create_job"
  | .updateJob .. => "update_job"
  | .processedCount .. => "processed_count"
  | .writeLog .. => "create_transaction"
  | .confirmLog .. => "update_transaction"
  | .listJobs .. => "list_jobs"
  | .jobDetails .. => "job_details"
  | .jobsSummary .. => "jobs_summary"
  | .ask .. => "product"

def callArgs : Call → Json
  | .subscription company slug => Json.object [("company_id", word company), ("slug", .str slug)]
  | .quota q => Json.object [("member_id", word q.member), ("company_id", word q.company),
      ("subscribed_id", word q.subscription), ("quota_type", .str q.quotaType)]
  | .grades company => Json.object [("company_id", word company)]
  | .createJob r => Form.encode r
  | .updateJob job u => Json.object ([("job_id", word job), ("status", .str u.status.name),
      ("has_end_at", .bool u.endAt.isSome)] ++
      (u.successCount.map fun n => ("success_count", word n)).toList)
  | .processedCount job => Json.object [("job_id", word job)]
  | .writeLog e => logJson e
  | .confirmLog id => Json.object [("transaction_id", .str id), ("success", .bool true)]
  | .listJobs s slug f =>
    Json.object [("scope", scopeJson s), ("slug", .str slug), ("filter", Form.encode f)]
  | .jobDetails s slug job f => Json.object [("scope", scopeJson s), ("slug", .str slug),
      ("job_id", word job), ("filter", Form.encode f)]
  | .jobsSummary s slug f =>
    Json.object [("scope", scopeJson s), ("slug", .str slug), ("filter", Form.encode f)]
  | .ask route caller body => Json.object [("upstream", .str route.service.name),
      ("path", .str route.path), ("api_key", .str caller.apiKey), ("job_id", word caller.job),
      ("member_id", word caller.member), ("company_id", word caller.company), ("body", body)]

/-- Whether a call deals with one row: its product is asked, or its log is written. -/
def isRowCall : Call → Bool
  | .writeLog _ => true
  | .confirmLog _ => true
  | .ask .. => true
  | _ => false

/-- The values of an object's members, in the order of their keys. -/
def valuesKey (j : Json) : String :=
  match j with
  | .obj members => "|".intercalate (members.map fun m => (m.2.str?).getD m.2.render)
  | _ => ""

/-- What rows that are dealt with at the same time are sorted by. -/
def sortKey : Call → String
  | .writeLog e => valuesKey e.input
  | .confirmLog id => id
  | .ask _ _ body => valuesKey body
  | _ => ""

end Vetting.Rehearsal
