import Vetting.Desk.Call
import Vetting.Http.Message
import Vetting.Url.Extend

/-!
Calls as requests to the services: an address below the service's own, headers that tell on whose
behalf the call is made, and a body.
-/

namespace Vetting

open Text (Bytes utf8)
open Wire (Form)

/-- Where the services are. -/
structure Addresses where
  core : Url
  catalog : Url
  scoring : Url
  deriving DecidableEq

def Addresses.of (a : Addresses) : Service → Url
  | .core => a.core
  | .catalog => a.catalog
  | .scoring => a.scoring

/-- A request to a service. -/
structure Outgoing where
  service : Service
  method : String
  url : Url
  headers : Http.Headers
  body : Option Json

/-- The service that a call is made to. -/
def Call.service : Call → Service
  | .ask route _ _ => route.service
  | _ => .core

namespace Outgoing

def decimal (n : UInt64) : String := toString n.toNat

def memberHeader (n : UInt64) : String × Bytes := ("x-member-id", utf8 (decimal n))

def companyHeader (n : UInt64) : String × Bytes := ("x-company-id", utf8 (decimal n))

def scopeHeaders (s : Scope) : Http.Headers :=
  [memberHeader s.member, companyHeader s.company, ("x-tier-level", utf8 (decimal s.tier))]

/-- Names and values of what is set. -/
def given (ps : List (String × Option String)) : List (String × String) :=
  ps.filterMap fun (name, v) => v.map fun v => (name, v)

def optInt (i : Option Int64) : Option String := i.map fun i => toString i.toInt

def jobListQuery (f : JobListFilter) : List (String × String) :=
  given [("page", optInt f.page), ("size", optInt f.size), ("start_date", f.startDate),
    ("end_date", f.endDate)]

def jobDetailQuery (f : JobDetailFilter) : List (String × String) :=
  given [("page", optInt f.page), ("size", optInt f.size), ("keyword", f.keyword)]

def jobSummaryQuery (f : JobSummaryFilter) : List (String × String) :=
  given [("start_date", some f.startDate), ("end_date", some f.endDate), ("size", optInt f.size)]

def quotaQuery (q : QuotaQuery) : List (String × String) :=
  [("member_id", decimal q.member), ("company_id", decimal q.company),
    ("subscribed_id", decimal q.subscription), ("quota_type", q.quotaType)]

/-- What a call asks for. -/
structure Ask where
  method : String
  /-- Below the service's address. -/
  segments : List String
  query : List (String × String)
  headers : Http.Headers
  body : Option Json

def member : List String := ["api", "core", "member"]

def jobs : List String := ["api", "core", "product", "jobs"]

def log : List String := ["api", "core", "logging", "transaction", "product-catalog"]

/-- The segments of a product's path. -/
def routeSegments (path : String) : List String :=
  ((path.toList.splitOn '/').filter fun s => !s.isEmpty).map String.ofList

/-- The request that asks for what a call is about. -/
def askOf : Call → Ask
  | .subscription company slug =>
    ⟨"GET", member ++ ["subscribed-product", slug], [], [companyHeader company], none⟩
  | .quota q => ⟨"GET", member ++ ["quota"], quotaQuery q, [], none⟩
  | .grades company => ⟨"GET", ["api", "core", "grading"], [], [companyHeader company], none⟩
  | .createJob r => ⟨"POST", jobs, [], [], some (Form.encode r)⟩
  | .updateJob job u => ⟨"PUT", jobs ++ [decimal job], [], [], some (Form.encode u)⟩
  | .processedCount job => ⟨"GET", log ++ [decimal job, "processed_count"], [], [], none⟩
  | .writeLog e => ⟨"POST", log, [], [], some (Form.encode e)⟩
  | .confirmLog id => ⟨"PUT", log ++ [id], [], [], some (Json.object [("success", .bool true)])⟩
  | .listJobs s slug f =>
    ⟨"GET", ["api", "core", "product", slug, "jobs"], jobListQuery f, scopeHeaders s, none⟩
  | .jobDetails s slug job f =>
    ⟨"GET", ["api", "core", "product", slug, "jobs", decimal job], jobDetailQuery f,
      scopeHeaders s, none⟩
  | .jobsSummary s slug f =>
    ⟨"GET", ["api", "core", "product", slug, "jobs-summary"], jobSummaryQuery f, scopeHeaders s,
      none⟩
  | .ask route caller body =>
    ⟨"POST", routeSegments route.path, [("job_id", decimal caller.job)],
      [("x-api-key", utf8 caller.apiKey), memberHeader caller.member, companyHeader caller.company],
      some body⟩

/-- The request for a call. A service whose address has no segments cannot be asked. -/
def ofCall (a : Addresses) (c : Call) : Except ServiceError Outgoing :=
  let ask := askOf c
  match (a.of c.service).below? ask.segments with
  | none => .error (.badAddress Url.Fault.noBase.message)
  | some url => .ok {
      service := c.service, method := ask.method, body := ask.body
      url := if ask.query.isEmpty then url else url.withQuery ask.query
      headers := ("content-type", utf8 "application/json") :: ask.headers }

/-- Whether all headers can be sent as they are. -/
def isSendable (o : Outgoing) : Bool := List.all o.headers fun h => (Http.visible? h.2).isSome

end Outgoing

end Vetting
