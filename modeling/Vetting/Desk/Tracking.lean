import Vetting.Desk.Logbook

/-!
The life of a job. It is written as in progress before its first row and, the first time a product
call fails, as failed. After its last row the number of processed entries is read back and the job
is written once more with its final status and its success count.
-/

namespace Vetting.Tracking

/-- A job as it was written at its end. -/
structure Final where
  job : UInt64
  total : UInt64
  status : JobStatus
  successCount : UInt64
  endAt : Instant
  deriving DecidableEq, Repr

def start (job : UInt64) : Task (Except ServiceError Unit) :=
  Task.ask (.updateJob job ⟨none, .inProgress, none⟩)

/-- Notes that a product call failed; the first time this is also written to the job. -/
def fail (job : UInt64) : Task Unit :=
  .trip fun before =>
    if before then .done ()
    else .call (.updateJob job ⟨none, .failed, none⟩) fun _ => .done ()

def attempt (job total : UInt64) : Task (Except ServiceError Final) :=
  .call (.processedCount job) fun
    | .error e => .done (.error e)
    | .ok processed =>
      let successCount : UInt64 := min processed total
      .latched fun failed =>
        let status := if failed then JobStatus.failed else .done
        .clock fun endAt =>
          .call (.updateJob job ⟨some successCount, status, some endAt⟩) fun
            | .error e => .done (.error e)
            | .ok _ => .count (.jobFinalized status)
                (.done (.ok ⟨job, total, status, successCount, endAt⟩))

end Vetting.Tracking
