import Vetting.CommandLine.Arguments
import Vetting.CommandLine.LogFilter
import Vetting.Configuration.Program

/-!
The course of the program: arguments, configuration, a check of it, and then the desk, which runs
until it has to stop.
-/

namespace Vetting.CommandLine

open Vetting.Configuration (Program Stop)
open Vetting.Configuration.Program (LoadFault)

/-- How a run of the program ends, and what it has printed. -/
structure Ending where
  code : UInt8
  output : List String
  errors : List String
  deriving DecidableEq, Repr

namespace Ending

/-- An end before the desk runs. -/
def refused (message : String) : Ending := ⟨1, [], [message]⟩

def ofUsage (f : UsageFault) : Ending := ⟨2, [], f.lines⟩

def ofHelp : Ending := ⟨0, help, []⟩

end Ending

/-- The file with the configuration, unless the program ends before it is read. -/
def fileOf (args : List String) : Except Ending String :=
  match Request.ofArguments args with
  | .error f => .error (.ofUsage f)
  | .ok .help => .error .ofHelp
  | .ok (.run file) => .ok file

/-- The configuration to run with. -/
def configurationOf (file : Except LoadFault Text.Bytes) : Except Ending Program :=
  match Program.load file with
  | .error f => .error (.refused ("Could not load config: " ++ f.message))
  | .ok p =>
    match p.gateway.flaw? with
    | some f => .error (.refused ("Invalid config: " ++ f.message))
    | none => .ok p

/-- A line of the log, without its time. -/
structure LogLine where
  source : String
  level : Level
  message : String
  deriving DecidableEq, Repr

def LogLine.render (l : LogLine) : String :=
  l.level.name.toUpper ++ " " ++ l.source ++ ": " ++ l.message

/-- The lines that are logged with a filter. -/
def logged (filter : String) (lines : List LogLine) : List String :=
  (lines.filter fun l => isLogged (logRules filter).1 l.source l.level).map LogLine.render

def startLine : LogLine := ⟨programName, .info, "Starting gateway"⟩

def listeningLine (p : Program) : LogLine :=
  ⟨"gateway", .info, "gateway listening host=" ++ p.gateway.listener.host ++ " port=" ++
    toString p.gateway.listener.port.toNat ++ " admin_port=" ++
    toString p.gateway.admin.port.toNat⟩

def stopLine (s : Stop) : LogLine := ⟨programName, .error, "gateway stopped error=" ++ s.message⟩

/-- The end of a run in which the desk had to stop. -/
def stopped (p : Program) (s : Stop) : Ending :=
  ⟨1, logged p.level [startLine, stopLine s], (logRules p.level).2⟩

/-- The whole course, if `held` tells what files hold and the desk stops for `stop`. -/
def course (held : String → Except LoadFault Text.Bytes) (stop : Program → Stop)
    (args : List String) : Ending :=
  let ending : Except Ending Ending := do
    let file ← fileOf args
    let p ← configurationOf (held file)
    return stopped p (stop p)
  match ending with
  | .ok e => e
  | .error e => e

end Vetting.CommandLine
