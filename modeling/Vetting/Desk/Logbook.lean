import Vetting.Desk.Task
import Vetting.Product.Submission

/-!
The desk's own entries in the transaction log. Each has an id of its own: the product's letters,
the time to the second, and a number that is never given out twice while the desk runs.
-/

namespace Vetting

/-- What a row knows about the job it belongs to. -/
structure Brief where
  product : Product
  job : UInt64
  total : UInt64
  member : UInt64
  company : UInt64
  productId : UInt64
  productGroup : UInt64
  apiKey : String
  deriving DecidableEq, Repr

def Brief.caller (b : Brief) : Caller := ⟨b.apiKey, b.job, b.member, b.company⟩

namespace Logbook

/-- Date and time of day in UTC as digits. -/
def digits (i : Instant) : String :=
  let d := i.date
  let s := i.secondOfDay
  Instant.renderYear d.year ++ Text.twoDigits d.month ++ Text.twoDigits d.day ++
    Text.twoDigits (s / 3600) ++ Text.twoDigits (s / 60 % 60) ++ Text.twoDigits i.clockSecond

def transactionId (letters : String) (now : Instant) (number : UInt64) : String :=
  letters ++ "-" ++ digits now ++ "-" ++ toString number.toNat

def nextId (letters : String) : Task String :=
  .fresh fun number => .clock fun now => .done (transactionId letters now number)

/-- The status of entries for submissions that no product was asked about. -/
def invalidStatus : UInt16 := 400

/-- The status of entries for submissions whose product did not answer. -/
def failedStatus : UInt16 := 502

/-- What an entry tells apart from whose it is and when it was made. -/
structure Remark where
  status : UInt16
  success : Bool
  message : String
  output : Option Json
  data : Option Json

def entry (b : Brief) (s : Submission) (r : Remark) (requestTime : Instant) : Task LogEntry :=
  (nextId b.product.letters).bind fun id =>
  .clock fun now => .done {
    transactionId := id, jobId := b.job, member := b.member, company := b.company
    productId := b.productId, productGroup := b.productGroup, status := r.status
    success := r.success, message := r.message, input := s.toJson, output := r.output
    data := r.data, requestTime, responseTime := now }

def invalid (complaint : String) : Remark := ⟨invalidStatus, false, complaint, none, none⟩

/-- The remark on a failed call: the evidence received, if the service answered. -/
def failed : ServiceError → Remark
  | .rejected r => ⟨failedStatus, false, r.message, r.body, r.body.bind (·.member? "data")⟩
  | e => ⟨failedStatus, false, e.message, none, none⟩

/-- The remark on a success that the partner does not log. -/
def succeeded (a : PartnerAnswer) : Remark := ⟨a.status, true, a.message, some a.toJson, a.data⟩

end Logbook

end Vetting
