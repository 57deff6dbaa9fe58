import Vetting.Product.Catalog
import Vetting.Wire.Shape

/-!
What the desk counts and measures.
-/

namespace Vetting

/-- Why a row did not succeed. -/
inductive RowFault where
  | validation
  | service
  deriving DecidableEq, Repr

def RowFault.name : RowFault → String
  | .validation => "validation"
  | .service => "upstream"

/-- One count, or one measured duration. -/
inductive Metric where
  | jobCreated (p : Product)
  | rowSent
  | rowFailed (f : RowFault)
  | jobFinalized (s : JobStatus)
  | requestTime (s : Service) (status : String)
  deriving DecidableEq, Repr

namespace Metric

def label : Metric → String
  | .jobCreated p => "bulk.jobs.created\x7bproduct=" ++ p.slug ++ "\x7d"
  | .rowSent => "bulk.rows.dispatched"
  | .rowFailed f => "bulk.rows.failed\x7breason=" ++ f.name ++ "\x7d"
  | .jobFinalized s => "jobs.finalized\x7bstatus=" ++ s.name ++ "\x7d"
  | .requestTime s status =>
    "upstream.request.duration\x7bupstream=" ++ s.name ++ ",status=" ++ status ++ "\x7d"

def descriptions : List (String × String) :=
  [("bulk.jobs.created", "counter: Jobs created by bulk uploads. Tagged with product."),
    ("bulk.rows.dispatched", "counter: Rows sent to a product by the bulk dispatcher."),
    ("bulk.rows.failed",
      "counter: Rows that did not succeed. Tagged with reason: validation, upstream."),
    ("jobs.finalized", "counter: Jobs moved to a terminal status. Tagged with status."),
    ("upstream.request.duration",
      "histogram: Upstream request duration in seconds. Tagged with upstream, status.")]

end Metric

end Vetting
