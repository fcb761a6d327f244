import Sm83.Bus
import Sm83.Cpu.Event
import Sm83.Cpu.Transfer

/-!
# The processor on its bus

A machine is a processor, a bus, and the events since its record was started.  Here are the accesses
that the processor makes and the steps that reach beyond it.

Two kinds of access are kept apart.  Data accesses come from instructions; on the colour model the
register of the speed switch belongs to the processor, so that data accesses to its address never
reach the bus.  Polls of the interrupt registers always use the bus.
-/

namespace Sm83

/-- A processor, a bus, and what happened. -/
structure Machine (β : Type) where
  cpu : Cpu
  bus : β
  /-- The events so far, in order. -/
  events : List Event

/-- Computations on a machine.  The state survives a fault. -/
abbrev MachineM (β : Type) := EStateM Fault (Machine β)

namespace Machine

variable {β : Type}

/-! ## Parts of the state -/

/-- Run a computation on the processor alone. -/
def onCpu {α : Type} (op : CpuM α) : MachineM β α := fun m =>
  match op m.cpu with
  | .ok value cpu => .ok value { m with cpu := cpu }
  | .error fault cpu => .error fault { m with cpu := cpu }

/-- The processor. -/
def getCpu : MachineM β Cpu := fun m => .ok m.cpu m

/-- Change the processor. -/
def modifyCpu (f : Cpu → Cpu) : MachineM β Unit := fun m => .ok () { m with cpu := f m.cpu }

/-- Record an event. -/
def emit (e : Event) : MachineM β Unit := fun m => .ok () { m with events := m.events ++ [e] }

/-! ## Accesses -/

variable [Bus β]

/-- Read from the bus. -/
def readBus (a : UInt16) : MachineM β UInt8 := fun m =>
  match m with
  | ⟨cpu, bus, events⟩ =>
    let (value, bus) := Bus.read a bus
    .ok value ⟨cpu, bus, events⟩

/-- Write to the bus. -/
def writeBus (a : UInt16) (value : UInt8) : MachineM β Unit := fun m =>
  match m with
  | ⟨cpu, bus, events⟩ => .ok () ⟨cpu, Bus.write a value bus, events⟩

/-- The speed switch that a data access to an address reaches instead of the bus. -/
def speedSwitchAt? (cpu : Cpu) (a : UInt16) : Option SpeedSwitch :=
  if a = SpeedSwitch.address then cpu.speed else none

/-- Read data. -/
def readData (a : UInt16) : MachineM β UInt8 := do
  match speedSwitchAt? (← getCpu) a with
  | some speed =>
    emit (.speedRead speed.read)
    return speed.read
  | none => readBus a

/-- Write data. -/
def writeData (a : UInt16) (value : UInt8) : MachineM β Unit := do
  match speedSwitchAt? (← getCpu) a with
  | some speed =>
    modifyCpu ({ · with speed := some (speed.write value) })
    emit (.speedWritten value)
  | none => writeBus a value

/-- The lines that are requested and enabled. -/
def pollInterrupts : MachineM β InterruptSet := do
  let enabled ← readBus enableAddress
  let requested ← readBus requestAddress
  return .ofByte (enabled &&& requested)

/-! ## Steps that reach beyond the processor -/

/-- Stop fetching.  With interrupts disabled and one already pending the processor does not halt at
all; instead the next move of the program counter is lost. -/
def halt : MachineM β Unit := do
  let pending ← pollInterrupts
  let cpu ← getCpu
  if cpu.ime || pending.isEmpty then
    modifyCpu ({ · with halted := true })
    emit (.enteredHalt cpu.opcodeAddress)
  else
    modifyCpu ({ · with haltBug := true })
    emit (.haltBugArmed cpu.opcodeAddress pending)

omit [Bus β] in
/-- Switch speed, where that is prepared.  Otherwise nothing happens. -/
def stop : MachineM β Unit := do
  let cpu ← getCpu
  match cpu.speed.map SpeedSwitch.switch with
  | some (true, speed) =>
    modifyCpu ({ · with speed := some speed })
    emit (.speedSwitched speed.doubleSpeed)
  | _ => emit (.stopIgnored cpu.opcodeAddress)

/-- The interrupt state with which a handler starts: disabled, and with nothing scheduled by an
earlier instruction.  An interrupt that finds the HALT bug armed returns to the instruction that
armed it. -/
def disarm (cpu : Cpu) : Cpu :=
  let pc := if cpu.haltBug then cpu.regs.pc - 1 else cpu.regs.pc
  { cpu with
    ime := false, imePending := false, imeDelay := false, haltBug := false
    regs := { cpu.regs with pc := pc } }

/-- Choose the interrupt to serve, withdraw its request, and leave the address of its handler on the
scratch stack.  The lines are polled again, and where nothing is left there is nothing to serve. -/
def acknowledge : MachineM β Unit := do
  modifyCpu disarm
  let enabled ← readBus enableAddress
  let requested ← readBus requestAddress
  match (InterruptSet.ofByte (enabled &&& requested)).first? with
  | none => throw .noPendingInterrupt
  | some line =>
    let cpu ← getCpu
    emit (.dispatched line cpu.regs.pc cpu.regs.sp requested enabled)
    writeBus requestAddress (requested &&& ~~~line.bits)
    onCpu (Cpu.pushWord line.vector)

end Machine

open Machine

/-- Carry out a step that reaches beyond the processor. -/
def Control.run {β : Type} [Bus β] : Control → MachineM β Unit
  | .halt => Machine.halt
  | .stop => Machine.stop
  | .undefined => do emit (.undefinedOpcode (← getCpu).opcodeAddress)
  | .acknowledge => Machine.acknowledge

/-- Carry out a step that takes a machine cycle. -/
def MachineCycle.run {β : Type} [Bus β] : MachineCycle → MachineM β Unit
  | .read => do
    let a ← onCpu Cpu.popWord
    let value ← readData a
    onCpu (Cpu.pushByte value)
  | .write => do
    let a ← onCpu Cpu.popWord
    let value ← onCpu Cpu.popByte
    writeData a value
  | .delay => pure ()

/-- Carry out a step. -/
def MicroStep.run {β : Type} [Bus β] : MicroStep → MachineM β Unit
  | .transfer t => onCpu t.run
  | .control c => c.run
  | .cycle c => c.run

end Sm83
