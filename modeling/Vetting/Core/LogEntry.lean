import Vetting.Wire.Form

/-!
Entries of the transaction log: one for every submission that was dealt with, whatever became of
it.
-/

namespace Vetting

open Wire

structure LogEntry where
  transactionId : String
  jobId : UInt64
  member : UInt64
  company : UInt64
  productId : UInt64
  productGroup : UInt64
  status : UInt16
  success : Bool
  message : String
  /-- The submission. -/
  input : Json
  /-- All that the partner answered, if it answered. -/
  output : Option Json
  /-- The result for the product. -/
  data : Option Json
  requestTime : Instant
  responseTime : Instant

instance : Form LogEntry where
  shape := .record "TransactionLog" (.req "transaction_id" text (.req "job_id" word64
    (.req "member_id" word64 (.req "company_id" word64 (.req "product_id" word64
    (.req "product_group_id" word64 (.req "status" word16 (.req "success" flag
    (.req "message" text (.req "input" .any (.req "output" (.option .any)
    (.req "data" (.option .any) (.req "request_time" instant
    (.req "response_time" instant .nil))))))))))))))
  ofVal := fun (transactionId, jobId, member, company, productId, productGroup, status, success,
      message, input, output, data, requestTime, responseTime, ()) =>
    ⟨transactionId, jobId, member, company, productId, productGroup, status, success, message,
      input, output, data, requestTime, responseTime⟩
  toVal e := (e.transactionId, e.jobId, e.member, e.company, e.productId, e.productGroup, e.status,
    e.success, e.message, e.input, e.output, e.data, e.requestTime, e.responseTime, ())

end Vetting
