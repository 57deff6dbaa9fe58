import Vetting.Configuration.Gateway

/-!
The configuration of the program: that of the desk, where its metrics go, and what it logs.
-/

namespace Vetting.Configuration

structure Logging where
  /-- Where errors are reported. -/
  reports : Option String
  level : String
  deriving DecidableEq, Repr

def defaultLevel : String := "info"

instance : Setting Logging where
  read d n := do
    let r ← Record.read d n
    return ⟨← r.get "sentry_dsn", ← r.get "level" (some defaultLevel)⟩
  absent := none

/-- Where metrics are sent. -/
structure Metrics where
  host : String
  port : UInt16
  deriving DecidableEq, Repr

instance : Setting Metrics where
  read d n := do
    let r ← Record.read d n
    return ⟨← r.get "statsd_host", ← r.get "statsd_port"⟩
  absent := none

structure Program where
  metrics : Option Metrics
  logging : Option Logging
  gateway : Gateway
  deriving DecidableEq

instance : Setting Program where
  read d n := do
    let r ← Record.read d n
    return ⟨← r.get "metrics", ← r.get "logging", ← r.get "gateway"⟩
  absent := none

namespace Program

def level (p : Program) : String := (p.logging.map (·.level)).getD defaultLevel

/-- Where errors are reported; an empty address stands for none. -/
def reports? (p : Program) : Option String :=
  (p.logging.bind (·.reports)).filter fun s => s ≠ ""

/-- Why there is no configuration. -/
inductive LoadFault where
  /-- The file cannot be opened. -/
  | closed (detail : String)
  /-- The file can be opened, but not read. -/
  | unreadable (detail : String)
  | unusable (f : Fault)
  deriving DecidableEq, Repr

def LoadFault.message : LoadFault → String
  | .closed detail => "could not load config from file: " ++ detail
  | .unreadable detail => "could not parse config: " ++ detail
  | .unusable f => "could not parse config: " ++ f.message

/-- The configuration that a file holds. -/
def load (file : Except LoadFault Text.Bytes) : Except LoadFault Program :=
  file.bind fun b => (ofBytes Program b).mapError .unusable

end Program

end Vetting.Configuration
