import Vetting.Desk.Row
import Vetting.Session.Identity

/-!
What has to hold before a job is created: the tenant subscribes to the product and, where scores
are given, has grades.
-/

namespace Vetting

/-- Goes on with the result of a task, unless the request is refused. -/
def Task.require {α β : Type} (t : Task (Except Refusal α)) (f : α → Task (Except Refusal β)) :
    Task (Except Refusal β) :=
  t.bind fun
    | .error r => .done (.error r)
    | .ok a => f a

namespace Admission

/-- The refusal when the tenant's subscription cannot be told. -/
def noSubscription (e : ServiceError) : Refusal :=
  if e.status? = some 404 then ⟨.notFound, "subscription not found"⟩ else .ofService e

def subscription (i : Identity) (p : Product) : Task (Except Refusal Subscription) :=
  .call (.subscription i.company p.slug) fun r => .done (r.mapError noSubscription)

def noGrades : Refusal := ⟨.badRequest, "grading is not configured"⟩

/-- Scores can only be given if there are grades. -/
def grading (i : Identity) (p : Product) : Task (Except Refusal Unit) :=
  if p.requiresGrading then
    .call (.grades i.company) fun
      | .error e => .done (.error (.ofService e))
      | .ok gs => .done (if List.isEmpty gs then .error noGrades else .ok ())
  else .done (.ok ())

def createJob (i : Identity) (s : Subscription) (total : UInt64) : Task (Except Refusal JobRef) :=
  Task.demand (.createJob ⟨s.productId, i.member, i.company, total⟩)

def brief (i : Identity) (p : Product) (s : Subscription) (job : JobRef) (total : UInt64) : Brief :=
  ⟨p, job.id, total, i.member, i.company, s.productId, s.product.group, i.apiKey⟩

end Admission

end Vetting
