import Vetting.Api.Handler
import Vetting.Configuration.Setting
import Vetting.Service.Outgoing

/-!
The configuration of the desk: where it listens, where the services are, how long calls may take,
and what the client interface needs to know. A configuration that can be read may still have a flaw.
-/

namespace Vetting.Configuration

/-- Where connections are accepted. -/
structure Listener where
  host : String
  port : UInt16
  deriving DecidableEq, Repr

structure Gateway where
  listener : Listener
  admin : Listener
  services : Addresses
  /-- How long calls of the core service may take, in seconds. -/
  coreTimeout : UInt64
  /-- How long calls of the partner services may take, in seconds. -/
  partnerTimeout : UInt64
  api : Api.Settings
  deriving DecidableEq

instance : Setting Listener where
  read d n := do
    let r ← Record.read d n
    return ⟨← r.get "host", ← r.get "port"⟩
  absent := none

instance : Setting Addresses where
  read d n := do
    let r ← Record.read d n
    return ⟨← r.get "core_url", ← r.get "product_catalog_url", ← r.get "scoring_url"⟩
  absent := none

/-- How long calls may take, in seconds. -/
structure Timeouts where
  core : UInt64
  partner : UInt64

instance : Setting Timeouts where
  read d n := do
    let r ← Record.read d n
    return ⟨← r.get "control_plane_secs" (some 5), ← r.get "product_secs" (some 10)⟩
  absent := some ⟨5, 10⟩

/-- How bulk uploads are taken in. -/
structure Intake where
  pace : Bulk.Pace
  maxUpload : Nat

def Intake.default : Intake := ⟨⟨100, 1000, none⟩, 30 * 1024 * 1024⟩

instance : Setting Intake where
  read d n := do
    let r ← Record.read d n
    let size (name : String) (default : Nat) : Except Fault Nat :=
      (r.get name (some (UInt64.ofNat default))).map UInt64.toNat
    let batch ← size "batch_size" Intake.default.pace.batch
    let interval ← size "batch_interval_ms" Intake.default.pace.interval
    let cap : Option UInt64 ← r.get "max_in_flight"
    let maxUpload ← size "max_upload_bytes" Intake.default.maxUpload
    return ⟨⟨batch, interval, cap.map UInt64.toNat⟩, maxUpload⟩
  absent := some .default

instance : Setting Session.Verifier where
  read d n := do
    let r ← Record.read d n
    return ⟨← r.get "session_secret", ← r.get "cookie_name" (some "session")⟩
  absent := none

instance : Setting Gateway where
  read d n := do
    let r ← Record.read d n
    let timeouts : Timeouts ← r.get "timeouts"
    let intake : Intake ← r.get "bulk"
    return {
      listener := ← r.get "listener", admin := ← r.get "admin_listener"
      services := ← r.get "upstreams"
      coreTimeout := timeouts.core, partnerTimeout := timeouts.partner
      api := ⟨← r.get "auth", intake.pace, intake.maxUpload⟩ }
  absent := none

/-- What can be wrong with a configuration that can be read. -/
inductive Flaw where
  | portZero
  | sharedAddress (l : Listener)
  | batchZero
  | capZero
  | noSecret
  deriving DecidableEq, Repr

def Listener.address (l : Listener) : String := l.host ++ ":" ++ toString l.port.toNat

def Flaw.message : Flaw → String
  | .portZero => "Port cannot be 0"
  | .sharedAddress l => "Listener and admin listener cannot share an address: " ++ l.address
  | .batchZero => "Bulk batch size cannot be 0"
  | .capZero => "Bulk max_in_flight cannot be 0"
  | .noSecret => "Session secret cannot be empty"

/-- The first flaw of a configuration. -/
def Gateway.flaw? (g : Gateway) : Option Flaw :=
  if g.listener.port = 0 || g.admin.port = 0 then some .portZero
  else if g.listener = g.admin then some (.sharedAddress g.listener)
  else if g.api.pace.batch = 0 then some .batchZero
  else if g.api.pace.cap = some 0 then some .capZero
  else if g.api.sessions.secret = "" then some .noSecret
  else none

/-- Why the desk stops. -/
inductive Stop where
  | flaw (f : Flaw)
  | network (detail : String)
  deriving DecidableEq, Repr

def Stop.message : Stop → String
  | .flaw f => "invalid configuration: " ++ f.message
  | .network detail => "I/O error: " ++ detail

end Vetting.Configuration
