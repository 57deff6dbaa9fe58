import Vetting.Api.Route
import Vetting.Calendar.Day
import Vetting.Core.Job
import Vetting.Http.MediaType
import Vetting.Http.Multipart
import Vetting.Http.Query
import Vetting.Product.Catalog
import Vetting.Refusal

/-!
What clients ask for: the product and job that a path names, the filters of a query, and the file
of an upload. The first thing that is wrong refuses the request.
-/

namespace Vetting.Api

open Http (Request)
open Http.Query (Kind Values)
open Text (Bytes)

def badRequest (message : String) : Refusal := ⟨.badRequest, message⟩

def productOf (params : List (String × String)) : Except Refusal Product :=
  match (params.lookup "slug").bind Product.ofSlug? with
  | some p => .ok p
  | none => .error ⟨.notFound, "product not found"⟩

def jobOf (params : List (String × String)) : Except Refusal UInt64 :=
  match Text.readInt 0 18446744073709551615 ((params.lookup "job_id").getD "") with
  | .ok n => .ok (UInt64.ofNat n.toNat)
  | .error _ => .error (badRequest "invalid job id")

def queryOf (fields : List (String × Kind)) (r : Request) : Except Refusal Values :=
  (Http.Query.read fields r.query).mapError fun f => badRequest f.message

def jobListFilter (r : Request) : Except Refusal JobListFilter := do
  let vs ← queryOf
    [("page", .int64), ("size", .int64), ("start_date", .text), ("end_date", .text)] r
  return ⟨vs.int? "page", vs.int? "size", vs.text? "start_date", vs.text? "end_date"⟩

def jobDetailFilter (r : Request) : Except Refusal JobDetailFilter := do
  let vs ← queryOf [("page", .int64), ("size", .int64), ("keyword", .text)] r
  return ⟨vs.int? "page", vs.int? "size", vs.text? "keyword"⟩

/-- Whether the export of a job is to be masked. -/
def maskedOf (r : Request) : Except Refusal Bool := do
  let vs ← queryOf [("masked", .flag)] r
  return vs.flag "masked"

/-- A day of a range, as it was written. -/
def dayOf (vs : Values) (key : String) : Except Refusal String :=
  match vs.text? key with
  | none => .error (badRequest (key ++ " is required"))
  | some s =>
    if s.isEmpty then .error (badRequest (key ++ " is required"))
    else if (Date.ofText? s).isNone then
      .error (badRequest (key ++ " must be formatted as YYYY-MM-DD"))
    else .ok s

/-- A range of days. -/
structure Range where
  first : String
  last : String
  masked : Bool
  deriving DecidableEq, Repr

/-- The range of days that is to be exported. Days are compared as they are written. -/
def rangeOf (r : Request) : Except Refusal Range := do
  let vs ← queryOf [("start_date", .text), ("end_date", .text), ("masked", .flag)] r
  let first ← dayOf vs "start_date"
  let last ← dayOf vs "end_date"
  if last < first then throw (badRequest "start_date must not be after end_date")
  return ⟨first, last, vs.flag "masked"⟩

def boundaryOf (r : Request) : Except Refusal String :=
  match (((r.headers.first? "content-type").bind Http.visible?).bind
      Http.MediaType.ofText?).bind Http.MediaType.boundary? with
  | some b => .ok b
  | none => .error (badRequest "Invalid \x60boundary\x60 for \x60multipart/form-data\x60 request")

structure File where
  name : String
  data : Bytes
  deriving DecidableEq, Repr

/-- The uploaded file of a request whose body is no longer than `limit`. -/
def fileOf (limit : Nat) (r : Request) : Except Refusal File := do
  let boundary ← boundaryOf r
  match Http.Multipart.named boundary "file" limit r.body with
  | .error f => throw (badRequest f.message)
  | .ok none => throw (badRequest "file is required")
  | .ok (some part) => return ⟨part.head.fileName.getD "", part.data⟩

/-- The JSON value of a request's body. -/
def jsonOf (r : Request) : Except Refusal Json :=
  (Json.Reader.value r.body).mapError fun f => badRequest ("invalid request body: " ++ f.message)

end Vetting.Api
