import Sm83.Log.Display
import Sm83.Runner
import Sm83.Text.Count

/-!
# The command line

The program takes a file to run, with options for the model and the budget.  Arguments are read from
left to right and the first that cannot be understood decides what is reported; of repeated arguments
the last counts.  The process succeeds exactly when the program it ran passed.

A second text sets which records of the run's log are shown.  The log and what went wrong in the end
both go to the error output.  A fault of the processor would bring the process down and has a code of
its own.
-/

namespace Sm83.CommandLine

/-! ## Arguments -/

/-- Why the arguments are no request for a run. -/
inductive ArgumentError
  /-- Help is asked for, or no file is given. -/
  | usage
  /-- The option for the budget is the last argument. -/
  | missingBudget
  /-- The budget is no count. -/
  | badBudget (text : String) (cause : Text.Count.Refusal)
  /-- There is no option of this name. -/
  | unknownOption (name : String)
  deriving DecidableEq, Repr

/-- How to use the program. -/
def usageLine : String := "Usage: " ++ Log.Source.runner.name ++ " [--cgb] [--max-cycles N] <rom.gb>"

/-- The lines that report an error. -/
def ArgumentError.lines : ArgumentError → List String
  | .usage => [usageLine]
  | .missingBudget => Failure.paragraph ⟨"--max-cycles needs a value", none⟩
  | .badBudget text cause =>
    Failure.paragraph ⟨"invalid cycle count '" ++ text ++ "'", some cause.message⟩
  | .unknownOption name => Failure.paragraph ⟨"unknown flag '" ++ name ++ "'", none⟩

/-- What the arguments have said so far. -/
structure Given where
  model : Model
  budget : Option Nat
  path : Option String
  deriving DecidableEq, Repr

/-- Read arguments, adding to what earlier ones said. -/
def readArguments (given : Given) : List String → Except ArgumentError Given
  | [] => .ok given
  | argument :: rest =>
    if argument = "--cgb" then readArguments { given with model := .cgb } rest
    else if argument = "--max-cycles" then
      match rest with
      | [] => .error .missingBudget
      | text :: rest =>
        match Text.Count.ofString text with
        | .error cause => .error (.badBudget text cause)
        | .ok budget => readArguments { given with budget := some budget } rest
    else if argument = "-h" ∨ argument = "--help" then .error .usage
    else if argument.startsWith "--" then .error (.unknownOption argument)
    else readArguments { given with path := some argument } rest

/-- The run that the arguments ask for. -/
def parse (arguments : List String) : Except ArgumentError RunConfig := do
  let given ← readArguments ⟨.dmg, none, none⟩ arguments
  match given.path with
  | none => throw .usage
  | some path => return ⟨path, given.model, given.budget.getD defaultBudget⟩

/-! ## The program -/

/-- Lines, each with its end. -/
def linesText (lines : List String) : String := String.join (lines.map (· ++ "\n"))

/-- Where a process can write. -/
inductive Stream
  /-- The output proper. -/
  | output
  /-- The output for logs and errors. -/
  | error
  deriving DecidableEq, Repr

/-- What the process writes, in order, and the code it exits with. -/
structure Exit where
  code : Nat
  written : List (Stream × String)
  deriving DecidableEq, Repr

namespace Exit

/-- All that is written to one place. -/
def textOn (exit : Exit) (stream : Stream) : String :=
  String.join ((exit.written.filter (·.1 == stream)).map (·.2))

/-- What is written to the output proper. -/
def output (exit : Exit) : String := exit.textOn .output

/-- What is written to the error output. -/
def errorOutput (exit : Exit) : String := exit.textOn .error

end Exit

/-- The code of a process that fails. -/
def failureCode : Nat := 1

/-- The code of a process that a fault brings down. -/
def faultCode : Nat := 101

/-- The code of a process that has no report. -/
def exitCode : RunError → Nat
  | .unreadable _ _ | .tooLarge _ => failureCode
  | .stopped _ => faultCode

/-- The record that says that the microcode is ready, which every process needs once. -/
def microcodeReady : Log.Record :=
  ⟨.microcode, .debug, "opcode tables built: " ++ toString microcodeSize ++ " steps"⟩

/-- The record that says how a run ended. -/
def stopped (r : Report) : Log.Record :=
  ⟨.runner, .info, "Stopped after " ++ toString r.cycles ++ " cycles: finished=" ++ toString r.finished
    ++ " " ++ r.registers.line ++ " [" ++ r.registers.f.text ++ "]"⟩

/-- The record that says that the program passed. -/
def passed : Log.Record := ⟨.runner, .info, "Test passed"⟩

/-- Bytes as decimal numbers in brackets. -/
def bytesText (bytes : List UInt8) : String :=
  "[" ++ ", ".intercalate (bytes.map fun b => toString b.toNat) ++ "]"

/-- What is wrong with a report, if anything. -/
def complaint? (config : RunConfig) (r : Report) : Option Failure :=
  if !r.finished then
    some ⟨"ROM did not execute LD B,B within " ++ toString config.budget ++ " cycles", none⟩
  else if !r.passed then
    some ⟨"register fingerprint " ++ bytesText r.registers.fingerprint
      ++ " does not match pass pattern " ++ bytesText passPattern, none⟩
  else none

/-- The end of a process that has shown a log and fails. -/
def failed (code : Nat) (log : String) (failure : Failure) : Exit :=
  ⟨code, [(.error, log), (.error, linesText failure.paragraph)]⟩

/-- What the process does about the report of a run with these records. -/
def conclude (filter : Log.Filter) (config : RunConfig) (records : List Log.Record) (r : Report) :
    Exit :=
  let records := records ++ [stopped r]
  match complaint? config r with
  | some failure => failed failureCode (Log.display filter records) failure
  | none => ⟨0, [(.error, Log.display filter (records ++ [passed]))]⟩

/-- What the process does with a filter for its log. -/
def runWith (read : FileReader) (filter : Log.Filter) (arguments : List String) : Exit :=
  match parse arguments with
  | .error e => ⟨failureCode, [(.error, linesText e.lines)]⟩
  | .ok config =>
    let run := runFile read filter.threshold [microcodeReady] config
    match run.result with
    | .error e => failed (exitCode e) (Log.display filter run.records) e.failure
    | .ok report => conclude filter config run.records report

/-- The whole program.  What is wrong with the text of the filter is said before anything else. -/
def run (read : FileReader) (filter : Option String) (arguments : List String) : Exit :=
  let (filter, errors) := match filter with
    | none => (Log.Filter.closed, [])
    | some text => Log.Filter.ofString text
  let exit := runWith read filter arguments
  { exit with written := (.error, linesText (errors.map Log.FilterError.warning)) :: exit.written }

end Sm83.CommandLine
