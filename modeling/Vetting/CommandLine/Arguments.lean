/-!
The arguments of the program. One option names the file with the configuration; its value follows
it, after an equals sign or as the next argument. A value that follows as an argument is looked at
only when the next option comes or the arguments end.
-/

namespace Vetting.CommandLine

/-- What the program is asked to do. -/
inductive Request where
  | help
  | run (file : String)
  deriving DecidableEq, Repr

inductive UsageFault where
  | noValue
  | unexpected (arg : String)
  | unexpectedValue (value option : String)
  | repeated
  | missing
  deriving DecidableEq, Repr

def programName : String := "frontoffice"

def fileOption : String := "config-file"

/-- The option as usage texts show it. -/
def shownOption : String := "--" ++ fileOption ++ " <CONFIG_FILE>"

namespace UsageFault

def message : UsageFault → String
  | .noValue => "a value is required for '" ++ shownOption ++ "' but none was supplied"
  | .unexpected arg => "unexpected argument '" ++ arg ++ "' found"
  | .unexpectedValue value option =>
    "unexpected value '" ++ value ++ "' for '" ++ option ++ "' found; no more were expected"
  | .repeated => "the argument '" ++ shownOption ++ "' cannot be used multiple times"
  | .missing => "the following required arguments were not provided:"

def usage : String := "Usage: " ++ programName ++ " " ++ shownOption

/-- What is printed. -/
def lines (f : UsageFault) : List String :=
  ["error: " ++ f.message] ++ (if f = .missing then ["  " ++ shownOption] else []) ++
    (if f = .noValue then [] else ["", usage]) ++ ["", "For more information, try '--help'."]

end UsageFault

def help : List String :=
  ["Product front office gateway", "", UsageFault.usage, "", "Options:",
    "      --config-file <CONFIG_FILE>  ", "  -h, --help                       Print help"]

/-- An argument by its dashes. -/
inductive Argument where
  /-- Two dashes alone: no options follow. -/
  | separator
  | long (name : String) (value : Option String)
  | short (letter : Char)
  | plain (s : String)
  deriving DecidableEq, Repr

def Argument.ofText (s : String) : Argument :=
  match s.toList with
  | ['-', '-'] => .separator
  | '-' :: '-' :: cs =>
    let name := cs.takeWhile (· ≠ '=')
    .long (String.ofList name) <| match cs.drop name.length with
      | [] => none
      | _ :: value => some (String.ofList value)
  | '-' :: c :: _ => .short c
  | _ => .plain s

/-- An option whose value has not been looked at. -/
inductive Pending where
  | nothing
  | option
  | value (s : String)
  deriving DecidableEq, Repr

structure State where
  file : Option String
  pending : Pending
  /-- Whether the separator was passed. -/
  separated : Bool
  deriving DecidableEq, Repr

namespace State

def start : State := ⟨none, .nothing, false⟩

/-- Takes the option with a value. -/
def take (st : State) (value : String) : Except UsageFault State :=
  if st.file.isSome then .error .repeated
  else if value = "" then .error .noValue
  else .ok { st with file := some value, pending := .nothing }

/-- Looks at what is pending. -/
def settle (st : State) : Except UsageFault State :=
  match st.pending with
  | .nothing => .ok st
  | .option => .error .noValue
  | .value s => st.take s

/-- Goes on to an argument; help ends the reading. -/
def step (st : State) (s : String) : Except UsageFault (State ⊕ Request) :=
  if st.separated then .error (.unexpected s)
  else match Argument.ofText s with
    | .separator => .ok (.inl { st with separated := true })
    | .long name value =>
      if name = fileOption then do
        let st ← st.settle
        match value with
        | some v => return .inl (← st.take v)
        | none => return .inl { st with pending := .option }
      else if name = "help" then
        match value with
        | some v => .error (.unexpectedValue v "--help")
        | none => st.settle.map fun _ => .inr .help
      else .error (.unexpected ("--" ++ name))
    | .short c =>
      if c = 'h' then st.settle.map fun _ => .inr .help
      else .error (.unexpected (String.ofList ['-', c]))
    | .plain s =>
      if st.pending = .option then .ok (.inl { st with pending := .value s })
      else .error (.unexpected s)

end State

def Request.ofArgumentsFrom (st : State) : List String → Except UsageFault Request
  | [] => do
    let st ← st.settle
    match st.file with
    | some file => return .run file
    | none => throw .missing
  | s :: rest => do
    match ← st.step s with
    | .inl st => ofArgumentsFrom st rest
    | .inr r => return r

/-- What a list of arguments asks for. -/
def Request.ofArguments (args : List String) : Except UsageFault Request :=
  ofArgumentsFrom .start args

end Vetting.CommandLine
