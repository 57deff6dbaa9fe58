import Std.Async.DNS
import Std.Async.TCP
import Std.Async.Timer
import Std.Sync.Channel
import Vetting.Api.Handler
import Vetting.Bulk.Dispatch
import Vetting.Configuration.Gateway
import Vetting.Service.Frame

/-!
Where the work of requests is done: calls go over the network, time is the machine's. Nothing is
decided here; what is done next is told by tasks and by the machine of a bulk run. There is no
encryption, so services can only be reached by plain connections, and what is counted goes nowhere.
-/

namespace Vetting.Server

open Std.Async (Async)

structure Office where
  gateway : Configuration.Gateway
  /-- The latest sequence number. -/
  issued : IO.Ref UInt64

def clock : IO Instant := do
  let now ← Std.Time.Timestamp.now
  let nanos := now.toNanosecondsSinceUnixEpoch.val
  return ⟨nanos / 1000000000, (nanos % 1000000000).toNat⟩

/-- All that comes until the other side closes the connection. -/
partial def drain (c : Std.Async.TCP.Socket.Client) (got : ByteArray) : Async ByteArray := do
  match ← c.recv? 65536 with
  | some more => drain c (got ++ more)
  | none => return got

def resolve (host : String) (port : UInt16) : Async (Option Std.Net.SocketAddress) := do
  let found ← Std.Async.DNS.getAddrInfo host (toString port.toNat)
  return found[0]?.map fun (address : Std.Net.IPAddr) => match address with
    | .v4 a => .v4 ⟨a, port⟩
    | .v6 a => .v6 ⟨a, port⟩

/-- Sends a request over a connection of its own. -/
def exchange (o : Outgoing) : Async Received := do
  match o.url.port? with
  | none => return .nothing (.broken "address without a port")
  | some port =>
    if o.url.scheme ≠ "http".toList then return .nothing (.broken "encryption is not supported")
    match (← resolve o.url.host (UInt16.ofNat port)) with
    | none => return .nothing (.broken "unknown host")
    | some place =>
      let c ← Std.Async.TCP.Socket.Client.mk
      c.connect place
      c.send ⟨(Frame.request o).toArray⟩
      let got ← drain c .empty
      return .ofBytes got.data.toList

instance : Inhabited Received := ⟨.nothing .timedOut⟩

/-- What comes back for a request in the time that its service has. -/
def Office.send (office : Office) (o : Outgoing) : Async Received := do
  let seconds := match o.service with
    | .core => office.gateway.coreTimeout
    | _ => office.gateway.partnerTimeout
  let sent : Async Received := do
    try exchange o catch e => return .nothing (.broken (toString e))
  let late : Async Received := do
    Std.Async.sleep (.ofNat (seconds.toNat * 1000))
    return .nothing .timedOut
  Std.Async.Async.race sent late

/-- Makes a call; what comes back is the reply to any call that is made in its place. -/
def Office.call (office : Office) (c : Call) : Async ((c : Call) → c.Outcome) := do
  let received ← match Outgoing.ofCall office.gateway.services c with
    | .ok o => if o.isSendable then office.send o else pure (.nothing .timedOut)
    | .error _ => pure (.nothing .timedOut)
  return fun c => (Client.perform office.gateway.services (fun _ => received) c).1

/-- Carries out a task whose job has a failure latch of its own. -/
def Office.perform {α : Type} (office : Office) (latch : IO.Ref Bool) : Task α → Async α
  | .done a => return a
  | .call c next => do
    let reply ← office.call c
    office.perform latch (next (reply c))
  | .fresh next => do
    let n ← office.issued.modifyGet fun n => (n + 1, n + 1)
    office.perform latch (next n)
  | .clock next => do office.perform latch (next (← clock))
  | .trip next => do
    let before ← latch.modifyGet fun b => (b, true)
    office.perform latch (next before)
  | .latched next => do office.perform latch (next (← latch.get))
  | .count _ next => office.perform latch next

/-! ## Bulk uploads -/

open Bulk (Dispatch Who)

/-- News for an upload under way. -/
inductive News where
  | reply (w : Who) (r : (c : Call) → c.Outcome)
  | awake

instance : Inhabited News := ⟨.awake⟩

/-- An upload, and where news of it come in. -/
structure Uploading where
  office : Office
  state : Dispatch
  news : Std.Channel News

namespace Uploading

def rowCount (u : Uploading) : Nat :=
  match u.state with
  | .running r _ => r.rows.length
  | _ => 0

/-- When the pause of the main strand is over. -/
def pause? (u : Uploading) : Option Nat :=
  match u.state with
  | .running r _ =>
    match r.phase with
    | .pausing due _ => some due
    | _ => none
  | _ => none

/-- One event, if it is possible. A sequence number is drawn from the whole office's in one step, so
that no two uploads draw the same. -/
def feed? (u : Uploading) (e : Bulk.Event) : IO (Option Uploading) :=
  u.office.issued.modifyGet fun n =>
    match (u.state.issuing n).step? (.run e) with
    | none => (none, n)
    | some state => (some { u with state }, state.shared.issued)

/-- Tells the upload something later on. -/
def expect (u : Uploading) (news : Async News) : Async Unit :=
  Std.Async.background do
    let n ← news
    discard <| u.news.send n

/-- Lets a strand go on until it waits, and starts what it waits for. -/
partial def go (u : Uploading) (w : Who) : Async Uploading := do
  match ← u.feed? (.move w (← clock)) with
  | none => return u
  | some v =>
    let v ← if u.rowCount < v.rowCount then v.go (.row u.rowCount) else pure v
    match v.state.pending? w with
    | some c =>
      v.expect do return News.reply w (← v.office.call c)
      return v
    | none =>
      match v.pause?, u.pause? with
      | some due, none =>
        v.expect do
          Std.Async.sleep (.ofNat (due - (← IO.monoMsNow)))
          return News.awake
        return v
      | _, _ => v.go w

def goMain (u : Uploading) : Async Uploading := do
  let mut u := u
  for i in List.range u.rowCount do
    u := (← u.feed? (.join i)).getD u
  u.go .main

/-- Goes on with an upload until its client can be told how it ended. -/
partial def run (u : Uploading) : Async (Except Refusal Bulk.Summary) := do
  match u.state.answer? with
  | some a => return a
  | none =>
    let news ← Std.Async.await (← u.news.recv)
    let u := (← u.feed? (.tick (← IO.monoMsNow))).getD u
    match news with
    | .awake => run (← u.goMain)
    | .reply w r =>
      let u := (← u.feed? (.reply w r)).getD u
      let u ← u.go w
      run (← u.goMain)

end Uploading

def Office.upload (office : Office) (prepare : Task (Except Refusal Bulk.Plan)) :
    Async (Except Refusal Bulk.Summary) := do
  let shared : Shared := ⟨← office.issued.get, false, []⟩
  let start : Uploading :=
    ⟨office, Dispatch.new prepare shared (← IO.monoMsNow) [], ← Std.Channel.new⟩
  (← start.go .main).run

/-- Answers a client's request. -/
def Office.answer (office : Office) (r : Http.Request) : Async Http.Response := do
  let now := (← clock).second.toNat
  match Api.handle office.gateway.api now r with
  | .answered a => return a
  | .task t => office.perform (← IO.mkRef false) t
  | .upload prepare => return Api.uploadResponse (← office.upload prepare)

end Vetting.Server
