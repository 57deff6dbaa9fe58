import Vetting.Api.Reply
import Vetting.Api.Request
import Vetting.Desk.Single
import Vetting.Session.Verifier

/-!
The client interface. A request is answered at once if there is nothing to ask the services for;
else it becomes a task, or a bulk upload. Every endpoint asks for a session first, then for a path
that is well-formed, then for its product.
-/

namespace Vetting.Api

open Http (Request Response)
open Text (Bytes utf8)

/-- What the interface needs to know. -/
structure Settings where
  sessions : Session.Verifier
  pace : Bulk.Pace
  /-- The size of the largest file that is accepted, in bytes. -/
  maxUpload : Nat
  deriving DecidableEq, Repr

/-- What a request leads to. -/
inductive Work where
  | answered (r : Response)
  | task (t : Task Response)
  /-- A bulk upload; `prepare` makes its plan. -/
  | upload (prepare : Task (Except Refusal Bulk.Plan))

def Work.map (f : Response → Response) : Work → Work
  | .answered r => .answered (f r)
  | .task t => .task (t.bind fun r => .done (f r))
  | .upload t => .upload t

/-- What the client of a bulk upload is told. -/
def uploadResponse : Except Refusal Bulk.Summary → Response := answer summary

/-- Room for the parts' heads on top of the largest file. -/
def framing : Nat := 65536

def Settings.bodyLimit (s : Settings) : Nat := s.maxUpload + framing

def routeNotFound : Response := Refusal.response ⟨.notFound, "route not found"⟩

def methodNotAllowed (e : Endpoint) : Response :=
  ⟨405, [("allow", utf8 (",".intercalate e.methods))], []⟩

def badPath (param : String) : Response :=
  .text 400 ("Invalid URL: Invalid UTF-8 in \x60" ++ param ++ "\x60")

def bodyTooLong : Response := .text 413 "Failed to buffer the request body: length limit exceeded"

/-- Work that needs something of the request, or the refusal in its place. -/
def withInput {α : Type} (a : Except Refusal α) (f : α → Work) : Work :=
  match a with
  | .ok a => f a
  | .error r => .answered r.response

/-- A call whose reply is passed on. -/
def passOn (c : Call) (render : c.Reply → Response) : Work :=
  .task ((Task.demand c).bind fun r => .done (answer render r))

def export_ (i : Identity) (p : Product) (target : Export.Target) (masked : Bool) : Work :=
  .task ((Export.export_ i p target masked).bind fun r => .done (answer attachment r))

/-- The work of an endpoint for a product. -/
def serve (s : Settings) (e : Endpoint) (i : Identity) (p : Product)
    (params : List (String × String)) (r : Request) : Work :=
  match e with
  | .bulk =>
    withInput (fileOf s.bodyLimit r) fun file =>
    withInput ((Upload.check file.name file.data.length s.maxUpload).mapError Refusal.ofUpload)
      fun _ => .upload (Bulk.Plan.prepare i p s.pace file.data)
  | .single =>
    withInput (jsonOf r) fun body =>
      .task ((Single.execute i p body).bind fun a => .done (answer partner a))
  | .listJobs =>
    withInput (jobListFilter r) fun f =>
      passOn (.listJobs i.scope p.slug f) listing
  | .jobDetails =>
    withInput (jobOf params) fun job =>
    withInput (jobDetailFilter r) fun f =>
      passOn (.jobDetails i.scope p.slug job f) listing
  | .exportJob =>
    withInput (jobOf params) fun job =>
    withInput (maskedOf r) fun masked => export_ i p (.job job) masked
  | .exportSummary =>
    withInput (rangeOf r) fun range => export_ i p (.dates range.first range.last) range.masked

/-- The work of an endpoint: the session, the path, the size of the body, the product. -/
def enter (s : Settings) (now : Nat) (e : Endpoint) (params : List (String × Bytes)) (r : Request) :
    Work :=
  withInput (s.sessions.verify now r.headers) fun i =>
    match decodeParams params with
    | .error name => .answered (badPath name)
    | .ok params =>
      if e = .single && r.body.length > s.bodyLimit then .answered bodyTooLong
      else withInput (productOf params) fun p => serve s e i p params r

/-- What a request leads to. A request for the head of a response gets no body. -/
def handle (s : Settings) (now : Nat) (r : Request) : Work :=
  let work := match route? r.path with
    | none => .answered routeNotFound
    | some (e, params) =>
      if r.method ∈ e.methods then enter s now e params r else .answered (methodNotAllowed e)
  if r.method = "HEAD" then work.map .withoutBody else work

end Vetting.Api
