import Sm83.Cpu.Step
import Sm83.Failure
import Sm83.Files
import Sm83.Memory

/-!
# Running test programs

A test program is an image in flat memory from address zero on.  It is run from the state after the
boot program until it executes the marker instruction `LD B,B`, and tells its verdict in the
registers: a program that passed leaves the first Fibonacci numbers in `B C D E H L`.  A run that
does not come to the marker ends when its budget of machine cycles is spent and the instruction under
way is complete.

The marker is looked for among the decoded opcodes, so a byte of the same value counts only where the
processor executes it.

Events are kept as log records from a threshold up, because a long run has more of them than anyone
wants to keep.
-/

namespace Sm83

/-! ## Verdicts -/

/-- The opcode of the marker instruction. -/
def markerOpcode : UInt8 := 0x40

/-- Whether the event is the execution of the marker. -/
def Event.isMarker : Event → Bool
  | .decoded .base opcode _ => opcode == markerOpcode
  | _ => false

/-- The registers in which a program leaves its verdict. -/
def Registers.fingerprint (r : Registers) : List UInt8 := [r.b, r.c, r.d, r.e, r.h, r.l]

/-- The verdict of a program that passed. -/
def passPattern : List UInt8 := [3, 5, 8, 13, 21, 34]

/-- How a run ended. -/
structure Report where
  /-- The marker was executed within the budget. -/
  finished : Bool
  cycles : Nat
  registers : Registers
  deriving DecidableEq, Repr

/-- Whether the program came to its end and passed. -/
def Report.passed (r : Report) : Bool := r.finished && r.registers.fingerprint == passPattern

/-- Why there is no report. -/
inductive RunError
  /-- The file cannot be read. -/
  | unreadable (path : String) (cause : ReadError)
  /-- The image has more bytes than there are addresses. -/
  | tooLarge (size : Nat)
  /-- The processor has stopped. -/
  | stopped (fault : Fault)
  deriving DecidableEq, Repr

/-- The failure that is reported. -/
def RunError.failure : RunError → Failure
  | .unreadable path cause => ⟨"failed to read ROM file '" ++ path ++ "'", some cause.message⟩
  | .tooLarge size =>
    ⟨"ROM is " ++ toString size ++ " bytes, larger than the " ++ toString addressSpace
      ++ " byte address space", none⟩
  | .stopped fault => ⟨fault.message, none⟩

/-! ## A run -/

namespace Runner

/-- A run under way. -/
structure Progress where
  cpu : Cpu
  memory : Memory
  /-- The marker has been executed. -/
  finished : Bool
  /-- The fault that stopped the processor, if one did. -/
  fault : Option Fault
  /-- The records kept, latest first. -/
  kept : List Log.Record

/-- One machine cycle of a run. -/
def advance (threshold : Option Log.Level) (p : Progress) : Progress :=
  match p with
  | ⟨cpu, memory, finished, _, kept⟩ =>
    let o := cpu.step memory
    { cpu := o.cpu
      memory := o.bus
      finished := finished || o.events.any Event.isMarker
      fault := o.fault
      kept := (Event.records threshold o.events).reverse ++ kept }

/-- Go on for at most `budget` cycles, until the marker. -/
def runToMarker (threshold : Option Log.Level) : (budget : Nat) → Progress → Progress
  | 0, p => p
  | budget + 1, p =>
    if p.finished || p.fault.isSome then p
    else runToMarker threshold budget (advance threshold p)

/-- Go on for at most `limit` cycles, until the instruction under way is complete. -/
def completeInstruction (threshold : Option Log.Level) : (limit : Nat) → Progress → Progress
  | 0, p => p
  | limit + 1, p =>
    if p.cpu.atBoundary || p.fault.isSome then p
    else completeInstruction threshold limit (advance threshold p)

/-- A run before its first cycle. -/
def start (model : Model) (memory : Memory) : Progress :=
  { cpu := .new model true, memory := memory, finished := false, fault := none, kept := [] }

/-- A run that has used its budget or come to the marker, and completed its last instruction. -/
def complete (threshold : Option Log.Level) (model : Model) (budget : Nat) (memory : Memory) :
    Progress :=
  completeInstruction threshold longestInstruction
    (runToMarker threshold budget (start model memory))

end Runner

/-- What a run leaves: its log and its report. -/
structure Run where
  records : List Log.Record
  result : Except RunError Report

/-- Run an image that is mapped at address zero. -/
def runImage (threshold : Option Log.Level) (model : Model) (budget : Nat) (image : List UInt8) :
    Run :=
  match Memory.zero.load 0 image with
  | .error _ => ⟨[], .error (.tooLarge image.length)⟩
  | .ok memory =>
    let p := Runner.complete threshold model budget memory
    { records := p.kept.reverse
      result := match p.fault with
        | some fault => .error (.stopped fault)
        | none => .ok ⟨p.finished, p.cpu.cycles, p.cpu.regs⟩ }

/-! ## Runs of files -/

/-- Which file to run, and how. -/
structure RunConfig where
  path : String
  model : Model
  /-- How many machine cycles the run may take. -/
  budget : Nat
  deriving DecidableEq, Repr

/-- The budget of a run for which none is given. -/
def defaultBudget : Nat := 100000000

/-- The record that says what is about to run. -/
def RunConfig.loaded (config : RunConfig) (size : Nat) : Log.Record :=
  ⟨.runner, .info, "Loaded ROM '" ++ config.path ++ "' (" ++ toString size ++ " bytes), model="
    ++ config.model.name⟩

/-- Read a file and run it.  What `preparation` says of making the machine is said where one is made,
which an image without a place in memory does not come to. -/
def runFile (read : FileReader) (threshold : Option Log.Level) (preparation : List Log.Record)
    (config : RunConfig) : Run :=
  match read config.path with
  | .error cause => ⟨[], .error (.unreadable config.path cause)⟩
  | .ok image =>
    let run := runImage threshold config.model config.budget image
    let before := config.loaded image.length
      :: if addressSpace < image.length then [] else preparation
    { run with
      records := before.filter (fun r => Log.shows threshold r.level) ++ run.records }

end Sm83
