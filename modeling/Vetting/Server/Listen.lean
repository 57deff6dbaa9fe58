import Std.Http.Server
import Vetting.Api.Admin
import Vetting.Server.Office

/-!
Where requests come in: one place for clients, and one for those who run the desk.
-/

namespace Vetting.Server

open Std.Async (Async ContextAsync)
open Vetting.Configuration (Listener)
open Text (utf8 lossy)

/-- Those who answer requests. -/
inductive Front where
  | clients (office : Office)
  | admin (ready : IO.Ref Bool)

/-- A request as it was taken in. -/
def requestOf (r : Std.Http.Request Std.Http.Body.Stream) : ContextAsync Http.Request := do
  let body : ByteArray ← r.body.readAll
  return {
    method := toString r.line.method
    target := utf8 (toString r.line.uri)
    headers := r.line.headers.toList.map fun h => (h.1.value, utf8 h.2.value)
    body := body.data.toList }

def responseOf (r : Http.Response) : Async (Std.Http.Response Std.Http.Body.Any) := do
  let status := (Std.Http.Status.ofCode none r.status).getD .internalServerError
  let headers := r.headers.foldl (fun hs (name, value) =>
    (hs.insert? name (lossy value)).getD hs) Std.Http.Headers.empty
  let body ← Std.Http.Body.Full.ofByteArray ⟨r.body.toArray⟩
  return { line := { status, headers }, body := .ofBody body }

def Front.answer (f : Front) (r : Http.Request) : Async Http.Response :=
  match f with
  | .clients office => office.answer r
  | .admin ready => do return Api.Admin.handle (← ready.get) r

instance : Std.Http.Server.Handler Front where
  onRequest f r := do
    let request ← requestOf r
    responseOf (← f.answer request)

/-- Room beyond the limit of the interface, which tells itself that a body is too large. -/
def limits (maxBody : Nat) : Std.Http.Config := { maxBodySize := 2 * maxBody }

def addressOf (l : Listener) : Async Std.Net.SocketAddress := do
  match (← resolve l.host l.port) with
  | some a => return a
  | none => throw (.userError "failed to lookup address information")

/-- Runs the desk until one of its listeners stops; `started` is done once both are there. -/
def listen (g : Configuration.Gateway) (started : IO Unit) : Async Unit := do
  let ready ← IO.mkRef false
  let office : Office := ⟨g, ← IO.mkRef 0⟩
  let limits := limits g.api.bodyLimit
  let admin ← Std.Http.Server.serve (← addressOf g.admin) (Front.admin ready) limits
  let clients ← Std.Http.Server.serve (← addressOf g.listener) (Front.clients office) limits
  ready.set true
  started
  Std.Async.Async.race admin.waitShutdown clients.waitShutdown

end Vetting.Server
