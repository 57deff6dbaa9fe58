import Vetting.Wire.Form

/-!
One row of a job as the core service lists it: the submission, the answer, and the entry of the
partner's own log, in which the submission is already masked.
-/

namespace Vetting

open Wire

/-- The values a submission may have, over all products. -/
structure DetailInput where
  name : Option String
  nik : Option String
  phoneNumber : Option String
  npwp : Option String
  npwpOrNik : Option String
  loanNo : Option String
  deriving DecidableEq, Repr, Inhabited

/-- The results an answer may have, over all products. -/
structure DetailData where
  name : Option String
  address : Option String
  remarks : Option String
  status : Option String
  queryCount : Option Json
  score : Option Json
  npwpVerification : Option String
  taxCompliance : Option String
  liveStatus : Option String
  operator : Option String
  phoneType : Option String
  probabilityToDefault : Option Json
  grade : Option String
  deriving Inhabited

/-- The entry of the partner's log. -/
structure Snapshot where
  input : DetailInput
  data : Option DetailData
  deriving Inhabited

structure JobDetail where
  jobId : UInt64
  transactionId : String
  status : String
  message : Option String
  input : DetailInput
  data : Option DetailData
  snapshot : Option Snapshot
  createdAt : Option Instant
  deriving Inhabited

/-- An optional field that may be missing. -/
abbrev Wire.Fields.free (key : String) (s : Shape) (rest : Fields) : Fields :=
  .opt key (.option s) rest

instance : Form DetailInput where
  shape := .record "DetailInput" (.free "name" text (.free "nik" text (.free "phone_number" text
    (.free "npwp" text (.free "npwp_or_nik" text (.free "loan_no" text .nil))))))
  ofVal := fun (name, nik, phoneNumber, npwp, npwpOrNik, loanNo, ()) =>
    ⟨name, nik, phoneNumber, npwp, npwpOrNik, loanNo⟩
  toVal d := (d.name, d.nik, d.phoneNumber, d.npwp, d.npwpOrNik, d.loanNo, ())

instance : Form DetailData where
  shape := .record "DetailData" (.cons "name" ["nama"] (.option text) .filled false
    (.cons "address" ["alamat"] (.option text) .filled false (.free "remarks" text
    (.free "status" text (.free "query_count" .any (.free "score" .any
    (.free "npwp_verification" text (.free "tax_compliance" text (.free "live_status" text
    (.free "operator" text (.free "phone_type" text (.free "probability_to_default" .any
    (.free "grade" text .nil)))))))))))))
  ofVal := fun (name, address, remarks, status, queryCount, score, npwpVerification, taxCompliance,
      liveStatus, operator, phoneType, probabilityToDefault, grade, ()) =>
    ⟨name, address, remarks, status, queryCount, score, npwpVerification, taxCompliance,
      liveStatus, operator, phoneType, probabilityToDefault, grade⟩
  toVal d := (d.name, d.address, d.remarks, d.status, d.queryCount, d.score, d.npwpVerification,
    d.taxCompliance, d.liveStatus, d.operator, d.phoneType, d.probabilityToDefault, d.grade, ())

instance : Form Snapshot where
  shape := .record "RefTransProductCatalog" (.opt "input" (Form.shape DetailInput)
    (.free "data" (Form.shape DetailData) .nil))
  ofVal := fun (input, data, ()) => ⟨Form.ofVal input, Option.map Form.ofVal data⟩
  toVal s := (Form.toVal s.input, s.data.map Form.toVal, ())

instance : Form JobDetail where
  shape := .record "JobDetail" (.opt "job_id" word64 (.opt "transaction_id" text
    (.opt "status" text (.free "message" text (.opt "input" (Form.shape DetailInput)
    (.free "data" (Form.shape DetailData)
    (.free "ref_trans_product_catalog" (Form.shape Snapshot)
    (.free "created_at" instant .nil))))))))
  ofVal := fun (jobId, transactionId, status, message, input, data, snapshot, createdAt, ()) =>
    ⟨jobId, transactionId, status, message, Form.ofVal input, Option.map Form.ofVal data,
      Option.map Form.ofVal snapshot, createdAt⟩
  toVal d := (d.jobId, d.transactionId, d.status, d.message, Form.toVal d.input,
    d.data.map Form.toVal, d.snapshot.map Form.toVal, d.createdAt, ())

end Vetting
