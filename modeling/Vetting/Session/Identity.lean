import Vetting.Core.Account

/-!
Who a client is, as told by the session it shows.
-/

namespace Vetting

structure Identity where
  company : UInt64
  member : UInt64
  role : UInt64
  tier : UInt64
  quotaType : String
  apiKey : String
  deriving DecidableEq, Repr, Inhabited

namespace Identity

/-- Whether uploads are checked against a quota. -/
def isMetered (i : Identity) : Bool := i.quotaType ≠ "0"

theorem isMetered_iff {i : Identity} : i.isMetered = true ↔ i.quotaType ≠ "0" :=
  decide_eq_true_iff

theorem isMetered_eq_false_iff {i : Identity} : i.isMetered = false ↔ i.quotaType = "0" := by
  simp [isMetered]

def scope (i : Identity) : Scope := ⟨i.member, i.company, i.tier⟩

end Identity

end Vetting
