import Vetting.Wire.Form

/-!
Jobs as the core service keeps them. A job has one row for each submission; its status and success
count are written by the desk.
-/

namespace Vetting

open Wire

structure JobRequest where
  productId : UInt64
  member : UInt64
  company : UInt64
  total : UInt64
  deriving DecidableEq, Repr

/-- A job as it is named when it is created. -/
structure JobRef where
  id : UInt64
  member : UInt64
  company : UInt64
  deriving DecidableEq, Repr

/-- A change of a job's status. -/
structure JobUpdate where
  successCount : Option UInt64
  status : JobStatus
  endAt : Option Instant
  deriving DecidableEq, Repr

structure ProcessedCount where
  count : UInt64
  deriving DecidableEq, Repr

structure Job where
  id : UInt64
  productId : UInt64
  member : UInt64
  company : UInt64
  total : UInt64
  successCount : UInt64
  status : JobStatus
  startAt : Option Instant
  endAt : Option Instant
  deriving DecidableEq, Repr

/-- Where a listing stands among all the pages of a list. -/
structure Meta where
  page : Int64
  size : Int64
  totalPages : Int64
  totalData : Int64
  deriving DecidableEq

structure JobListFilter where
  page : Option Int64
  size : Option Int64
  startDate : Option String
  endDate : Option String
  deriving DecidableEq

structure JobDetailFilter where
  page : Option Int64
  size : Option Int64
  keyword : Option String
  deriving DecidableEq

structure JobSummaryFilter where
  startDate : String
  endDate : String
  size : Option Int64
  deriving DecidableEq

instance : Form JobRequest where
  shape := .record "CreateJobRequest" (.req "product_id" word64 (.req "member_id" word64
    (.req "company_id" word64 (.req "total" word64 .nil))))
  ofVal := fun (productId, member, company, total, ()) => ⟨productId, member, company, total⟩
  toVal r := (r.productId, r.member, r.company, r.total, ())

instance : Form JobRef where
  shape := .record "JobRef" (.req "id" word64 (.req "member_id" word64
    (.req "company_id" word64 .nil)))
  ofVal := fun (id, member, company, ()) => ⟨id, member, company⟩
  toVal j := (j.id, j.member, j.company, ())

instance : Form JobUpdate where
  shape := .record "UpdateJobRequest" (.maybe "success_count" word64
    (.req "status" .status (.maybe "end_at" instant .nil)))
  ofVal := fun (successCount, status, endAt, ()) => ⟨successCount, status, endAt⟩
  toVal u := (u.successCount, u.status, u.endAt, ())

instance : Form ProcessedCount where
  shape := .record "ProcessedCount" (.req "processed_count" word64 .nil)
  ofVal := fun (count, ()) => ⟨count⟩
  toVal p := (p.count, ())

instance : Form Job where
  shape := .record "Job" (.req "id" word64 (.opt "product_id" word64 (.opt "member_id" word64
    (.opt "company_id" word64 (.opt "total" word64 (.opt "success_count" word64
    (.req "status" .status (.req "start_at" (.option instant)
    (.req "end_at" (.option instant) .nil)))))))))
  ofVal := fun (id, productId, member, company, total, successCount, status, startAt, endAt, ()) =>
    ⟨id, productId, member, company, total, successCount, status, startAt, endAt⟩
  toVal j := (j.id, j.productId, j.member, j.company, j.total, j.successCount, j.status, j.startAt,
    j.endAt, ())

instance : Form Meta where
  shape := .record "Meta" (.opt "page" int64 (.opt "size" int64 (.opt "total_pages" int64
    (.opt "total_data" int64 .nil))))
  ofVal := fun (page, size, totalPages, totalData, ()) => ⟨page, size, totalPages, totalData⟩
  toVal m := (m.page, m.size, m.totalPages, m.totalData, ())

instance : Form JobListFilter where
  shape := .record "JobListFilter" (.maybe "page" int64 (.maybe "size" int64
    (.maybe "start_date" text (.maybe "end_date" text .nil))))
  ofVal := fun (page, size, startDate, endDate, ()) => ⟨page, size, startDate, endDate⟩
  toVal f := (f.page, f.size, f.startDate, f.endDate, ())

instance : Form JobDetailFilter where
  shape := .record "JobDetailFilter" (.maybe "page" int64 (.maybe "size" int64
    (.maybe "keyword" text .nil)))
  ofVal := fun (page, size, keyword, ()) => ⟨page, size, keyword⟩
  toVal f := (f.page, f.size, f.keyword, ())

instance : Form JobSummaryFilter where
  shape := .record "JobSummaryFilter" (.req "start_date" text (.req "end_date" text
    (.maybe "size" int64 .nil)))
  ofVal := fun (startDate, endDate, size, ()) => ⟨startDate, endDate, size⟩
  toVal f := (f.startDate, f.endDate, f.size, ())

end Vetting
