import Sm83.Cpu.Machine
import Sm83.Instruction.Decode
import Sm83.Instruction.Microcode

/-!
# Machine cycles

The processor advances one machine cycle at a time.  Inside an instruction, a cycle carries out the
step that was waited for and then everything in no time, up to the next step that needs a cycle or to
the end.  At an instruction boundary it first decides what comes next: idling while halted, serving
an interrupt, or fetching an opcode.

All recursion is on the rows of steps, so a cycle ends because rows are finite.  A row ends in at
most one branch or one second opcode byte, and what follows these is a row that ends by itself.

* `settle` — everything in no time.
* `resume` — a suspended instruction through one cycle.
* `Cpu.step` — one machine cycle of a processor on a bus, with what happened in it.
* `Outcome.toBoundary` — the cycles that complete an instruction.
-/

namespace Sm83

namespace Machine

variable {β : Type} [Bus β]

/-! ## Steps in no time -/

/-- Carry out steps in no time up to the first that takes a machine cycle.  Gives that step and those
behind it, or nothing where the row ends first. -/
def runInstant : List MicroStep → MachineM β (Option (MachineCycle × List MicroStep))
  | [] => pure none
  | .cycle c :: rest => pure (some (c, rest))
  | .transfer t :: rest => do
    onCpu t.run
    runInstant rest
  | .control c :: rest => do
    c.run
    runInstant rest

/-- Start a row after which the instruction is over. -/
def settleLast (steps : List MicroStep) : MachineM β (Option Suspension) := do
  match ← runInstant steps with
  | some (c, rest) => return some ⟨c, rest, .retire⟩
  | none => return none

/-- What follows a row that has come to its end. -/
def leave : Exit → MachineM β (Option Suspension)
  | .retire => return none
  | .branch condition taken leftover => do
    if condition.holds (← getCpu).regs.f then settleLast taken
    else
      onCpu (Cpu.onScratch (ScratchStack.drop leftover))
      return none
  | .prefixed => do
    let opcode ← onCpu Cpu.popByte
    emit (.decoded .prefixed opcode (← getCpu).opcodeAddress)
    settleLast (PrefixedInstruction.ofOpcode opcode).steps

/-- Carry out everything in no time.  Gives the suspended instruction, or nothing where it is
over. -/
def settle (steps : List MicroStep) (exit : Exit) : MachineM β (Option Suspension) := do
  match ← runInstant steps with
  | some (c, rest) => return some ⟨c, rest, exit⟩
  | none => leave exit

/-! ## One machine cycle -/

/-- Take a suspended instruction through the cycle it waits for. -/
def resume (s : Suspension) : MachineM β (Option Suspension) := do
  s.cycle.run
  settle s.rest s.exit

/-- Start a microprogram and take it through its first cycle. -/
def start (p : Microprogram) : MachineM β (Option Suspension) := do
  match ← settle p.steps p.exit with
  | some s => resume s
  | none => return none

/-- Carry out a row of steps to its end. -/
def carryOut : List MicroStep → MachineM β Unit
  | [] => pure ()
  | s :: rest => do
    s.run
    carryOut rest

/-- Fetch and decode an opcode.  The row that reads operand bytes reads opcodes too, in one machine
cycle. -/
def fetchOpcode : MachineM β UInt8 := do
  modifyCpu fun cpu => { cpu with opcodeAddress := cpu.regs.pc }
  carryOut Microcode.operandByte
  let opcode ← onCpu Cpu.popByte
  emit (.decoded .base opcode (← getCpu).opcodeAddress)
  return opcode

/-- Fetch an opcode and start the instruction. -/
def fetch : MachineM β (Option Suspension) := do
  let program := (Instruction.ofOpcode (← fetchOpcode)).microprogram
  settle program.steps program.exit

/-- The delayed enabling of interrupts moves on by one boundary. -/
def commitIme (cpu : Cpu) : Cpu :=
  if cpu.imeDelay then { cpu with ime := true, imeDelay := false }
  else if cpu.imePending then { cpu with imePending := false, imeDelay := true }
  else cpu

/-- Spend a cycle halted.  A pending interrupt ends the halt whether or not it can be served. -/
def idle (pending : InterruptSet) : MachineM β Unit := do
  if pending.isEmpty then return
  modifyCpu ({ · with halted := false })
  let cpu ← getCpu
  emit (.leftHalt pending cpu.ime cpu.regs.pc)

/-- The decision at an instruction boundary. -/
def nextInstruction : MachineM β (Option Suspension) := do
  modifyCpu commitIme
  let pending ← pollInterrupts
  let cpu ← getCpu
  if cpu.halted then
    idle pending
    return none
  else if cpu.ime && !pending.isEmpty then start interruptMicroprogram
  else fetch

/-- Count a cycle and take the suspended instruction out of the state. -/
def beginCycle : MachineM β (Option Suspension) := fun m =>
  .ok m.cpu.suspended { m with cpu := { m.cpu with suspended := none, cycles := m.cpu.cycles + 1 } }

/-- One machine cycle. -/
def cycle : MachineM β Unit := do
  let next ← match ← beginCycle with
    | some s => resume s
    | none => nextInstruction
  modifyCpu ({ · with suspended := next })

end Machine

/-! ## Running -/

/-- What a stretch of machine cycles leads to. -/
structure Outcome (β : Type) where
  cpu : Cpu
  bus : β
  /-- What happened, in order. -/
  events : List Event
  /-- The fault that stopped the processor, if one did. -/
  fault : Option Fault

variable {β : Type} [Bus β]

/-- One machine cycle of a processor on a bus. -/
def Cpu.step (cpu : Cpu) (bus : β) : Outcome β :=
  match Machine.cycle ⟨cpu, bus, []⟩ with
  | .ok _ m => ⟨m.cpu, m.bus, m.events, none⟩
  | .error fault m => ⟨m.cpu, m.bus, m.events, some fault⟩

namespace Outcome

/-- The outcome before any cycle. -/
def start (cpu : Cpu) (bus : β) : Outcome β := ⟨cpu, bus, [], none⟩

/-- One cycle more, unless a fault has stopped the processor. -/
def next (o : Outcome β) : Outcome β :=
  match o with
  | ⟨cpu, bus, events, none⟩ =>
    let o := cpu.step bus
    { o with events := events ++ o.events }
  | stopped => stopped

/-- Go on for at most `limit` cycles, until an instruction boundary or a fault. -/
def toBoundary : (limit : Nat) → Outcome β → Outcome β
  | 0, o => o
  | limit + 1, o => if o.fault.isSome || o.cpu.atBoundary then o else toBoundary limit o.next

end Outcome

/-- No instruction and no interrupt dispatch takes more machine cycles than this. -/
def longestInstruction : Nat := 6

/-- At least one machine cycle, and then on to the next instruction boundary. -/
def Cpu.stepInstruction (cpu : Cpu) (bus : β) : Outcome β :=
  (cpu.step bus).toBoundary longestInstruction

end Sm83
