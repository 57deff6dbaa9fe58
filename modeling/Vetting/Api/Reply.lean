import Vetting.Bulk.Dispatch
import Vetting.Export.Sheet

/-!
The responses of the client interface. A success has a message, data and, for a page of a list, its
place in the list.
-/

namespace Vetting.Api

open Http (Response)
open Text (Bytes utf8)
open Wire (Form)

/-- The body of a success. -/
def successJson (message : String) (data : Json) (pages : Option Meta) : Json :=
  Json.object ([("success", .bool true), ("message", .str message), ("data", data)] ++
    (pages.map fun m => ("meta", Form.encode m)).toList)

def success (message : String) (data : Json) (pages : Option Meta) : Response :=
  .json 200 (successJson message data pages)

/-- A response, or the refusal in its place. -/
def answer {α : Type} (f : α → Response) : Except Refusal α → Response
  | .ok a => f a
  | .error r => r.response

/-- A listing, passed on from the core service. -/
def listing {α : Type} [Form α] (a : CoreAnswer (List α)) : Response :=
  success a.message (Json.ofOption Form.encode a.data) a.pages

/-- The answer of a partner. -/
def partner (a : PartnerAnswer) : Response := success a.message (a.data.getD .null) none

def summaryJson (s : Bulk.Summary) : Json :=
  Json.object [("job_id", Json.ofNat s.job.toNat), ("total", Json.ofNat s.total.toNat),
    ("success_count", Json.ofNat s.successCount.toNat), ("status", .str s.status.name)]

def summary (s : Bulk.Summary) : Response := success "bulk request processed" (summaryJson s) none

/-- Whether a value can stand in a header line. -/
def isHeaderValue (b : Bytes) : Bool := b.all fun x => x = 0x09 || (0x20 ≤ x && x ≠ 0x7F)

/-- An exported table, to be kept as a file. -/
def attachment (s : Export.Sheet) : Response :=
  let disposition := utf8 ("attachment; filename=" ++ s.fileName)
  if isHeaderValue disposition then
    ⟨200, [("content-type", utf8 "text/csv"), ("content-disposition", disposition)], s.body⟩
  else .text 500 "failed to parse header value"

end Vetting.Api
