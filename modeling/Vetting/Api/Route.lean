import Vetting.Http.Message
import Vetting.Url.Percent

/-!
The paths that clients can ask for. A path matches segment by segment, as it is sent; where a route
has a parameter any segment matches, at the end of a path any that is not empty.
-/

namespace Vetting.Api

open Text (Bytes utf8 ofUtf8?)

inductive Endpoint where
  | bulk
  | single
  | listJobs
  | jobDetails
  | exportJob
  | exportSummary
  deriving DecidableEq, Repr

namespace Endpoint

/-- The methods of an endpoint, as they are told to clients that use another one. -/
def methods : Endpoint → List String
  | .bulk => ["POST"]
  | .single => ["POST"]
  | _ => ["GET", "HEAD"]

end Endpoint

inductive Segment where
  | fixed (s : String)
  | param (name : String)
  deriving DecidableEq, Repr

/-- A route's segments below the root. -/
def routes : List (Endpoint × List Segment) :=
  let below (rest : List Segment) : List Segment :=
    .fixed "api" :: .fixed "products" :: .param "slug" :: rest
  [(.bulk, below [.fixed "bulk"]),
    (.single, below [.fixed "single"]),
    (.listJobs, below [.fixed "jobs"]),
    (.jobDetails, below [.fixed "jobs", .param "job_id"]),
    (.exportJob, below [.fixed "jobs", .param "job_id", .fixed "export"]),
    (.exportSummary, below [.fixed "jobs-summary", .fixed "export"])]

/-- The parameters of a path that matches a route, as they were sent. -/
def params? : List Segment → List Bytes → Option (List (String × Bytes))
  | [], [] => some []
  | .fixed s :: route, b :: path => if utf8 s = b then params? route path else none
  | .param name :: route, b :: path =>
    if route.isEmpty && b.isEmpty then none
    else (params? route path).map ((name, b) :: ·)
  | _, _ => none

/-- The endpoint of a path, and its parameters. -/
def route? (path : Bytes) : Option (Endpoint × List (String × Bytes)) :=
  match path.splitOn 0x2F with
  | [] :: segments => routes.findSome? fun (e, r) => (params? r segments).map fun ps => (e, ps)
  | _ => none

/-- The parameters as texts, or the name of the first one that is not well-formed UTF-8. -/
def decodeParams : List (String × Bytes) → Except String (List (String × String))
  | [] => .ok []
  | (name, b) :: rest =>
    match ofUtf8? (Url.decode b) with
    | none => .error name
    | some s => (decodeParams rest).map ((name, s) :: ·)

end Vetting.Api
