import Vetting.Bulk.Dispatch
import Vetting.Desk.Errand
import Vetting.Desk.Single

/-!
All that is under way while the desk runs. Uploads, single submissions and requests for a
transaction id come in at any time and go on next to each other; their sequence numbers are those
of the whole desk.
-/

namespace Vetting

open Text (Bytes)

/-- What the desk can be asked for. -/
inductive Order where
  | upload (i : Identity) (p : Product) (pace : Bulk.Pace) (csv : Bytes)
  | single (i : Identity) (p : Product) (body : Json)
  /-- No more than a transaction id. -/
  | id (p : Product)

/-- An order under way. -/
inductive Matter where
  | upload (d : Bulk.Dispatch)
  | single (e : Errand (Except Refusal PartnerAnswer))
  | id (e : Errand String)

/-- The order's matter before its first step. -/
def Order.matter (issued : UInt64) (now : Nat) : Order → Matter
  | .upload i p pace csv =>
    .upload (Bulk.Dispatch.new (Bulk.Plan.prepare i p pace csv) ⟨issued, false, []⟩ now [])
  | .single i p body => .single (.new (Single.execute i p body) issued)
  | .id p => .id (.new (Logbook.nextId p.letters) issued)

namespace Matter

inductive Event where
  | upload (e : Bulk.Dispatch.Event)
  | errand (e : Errand.Event)

/-- What becomes of a matter by one event when the latest sequence number is `issued`. -/
def step? (issued : UInt64) : Matter → Event → Option Matter
  | upload d, .upload e => ((d.issuing issued).step? e).map upload
  | single t, .errand e => ((t.issuing issued).step? e).map single
  | id t, .errand e => ((t.issuing issued).step? e).map id
  | _, _ => none

/-- The latest sequence number that the matter knows of. -/
def issued : Matter → UInt64
  | upload d => d.shared.issued
  | single t => t.shared.issued
  | id t => t.shared.issued

/-- The transaction id that was asked for, once it is there. -/
def returned? : Matter → Option String
  | id ⟨.ended s, _⟩ => some s
  | _ => none

end Matter

structure Shift where
  /-- The latest sequence number. -/
  issued : UInt64
  /-- In the order in which they came in. -/
  matters : List Matter

namespace Shift

/-- The desk before its first order. -/
def opened : Shift := ⟨0, []⟩

inductive Event where
  /-- An order comes in. -/
  | take (o : Order) (now : Nat)
  /-- A matter goes on. -/
  | go (k : Nat) (e : Matter.Event)

def step? (s : Shift) : Event → Option Shift
  | .take o now => some { s with matters := s.matters ++ [o.matter s.issued now] }
  | .go k e =>
    (s.matters[k]?).bind fun m =>
    (m.step? s.issued e).map fun m => ⟨m.issued, s.matters.set k m⟩

def steps? (s : Shift) : List Event → Option Shift
  | [] => some s
  | e :: es => (s.step? e).bind (·.steps? es)

/-- The transaction ids that have been asked for and given out. -/
def returned (s : Shift) : List String := s.matters.filterMap Matter.returned?

end Shift

end Vetting
