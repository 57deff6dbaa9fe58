import Vetting.CommandLine.Startup
import Vetting.Server.Listen

/-!
The program.
-/

namespace Vetting.Main

open CommandLine (Ending)
open Configuration.Program (LoadFault)

/-- Errors by the words for them, and what the system says of them. -/
def systemTexts : List (String × String) :=
  [("address not available", "Cannot assign requested address (os error 99)"),
    ("address already in use", "Address already in use (os error 98)"),
    ("permission denied", "Permission denied (os error 13)")]

def systemText (e : IO.Error) : String :=
  match e with
  | .noFileOrDirectory _ _ _ => "No such file or directory (os error 2)"
  | .inappropriateType _ _ _ => "Is a directory (os error 21)"
  | .permissionDenied _ _ _ => "Permission denied (os error 13)"
  | .resourceBusy _ details => (systemTexts.lookup details).getD details
  | .unsupportedOperation _ details => (systemTexts.lookup details).getD details
  | e => toString e

def fileBytes (path : String) : IO (Except LoadFault Text.Bytes) := do
  try return .ok (← IO.FS.readBinFile path).data.toList
  catch e => match e with
    | .inappropriateType _ _ _ => return .error (.unreadable (systemText e))
    | _ => return .error (.closed (systemText e))

def finish (e : Ending) : IO UInt32 := do
  e.output.forM fun l => IO.println l
  e.errors.forM fun l => IO.eprintln l
  return e.code.toUInt32

def log (p : Configuration.Program) (l : CommandLine.LogLine) : IO Unit := do
  let time := (← Server.clock).render
  (CommandLine.logged p.level [l]).forM fun l => IO.println (time ++ " " ++ l)
  (← IO.getStdout).flush

/-- Runs the program with its configuration, until the desk stops. -/
def run (p : Configuration.Program) : IO UInt32 := do
  (CommandLine.logRules p.level).2.forM fun l => IO.eprintln l
  log p CommandLine.startLine
  try
    (Server.listen p.gateway (log p (CommandLine.listeningLine p))).block
    return 0
  catch e =>
    log p (CommandLine.stopLine (.network (systemText e)))
    return 1

end Vetting.Main

open Vetting in
def main (args : List String) : IO UInt32 := do
  match CommandLine.fileOf args with
  | .error e => Main.finish e
  | .ok file =>
    match CommandLine.configurationOf (← Main.fileBytes file) with
    | .error e => Main.finish e
    | .ok p => Main.run p
