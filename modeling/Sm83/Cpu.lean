import Sm83.MicroStep
import Sm83.ScratchStack
import Sm83.SpeedSwitch

/-!
# The processor

The state of the processor between two machine cycles: the registers, four bits of interrupt state,
the scratch stack and, inside an instruction, the cycle it waits for.  An instruction boundary is a
state that waits for none.

Interrupts are enabled by `ime`.  The instruction that enables them does so with a delay, for which
there are two more bits: it sets `imePending`, the next boundary turns that into `imeDelay`, and the
boundary after the following instruction turns this into `ime`.

`reset` puts everything back except the model.  It is a function of what it keeps, so a processor
after a reset differs from a new one in the leftovers of its scratch stack and in nothing else.
-/

namespace Sm83

/-- The hardware the processor sits in. -/
inductive Model
  /-- The monochrome model. -/
  | dmg
  /-- The colour model, which has a speed switch. -/
  | cgb
  deriving DecidableEq, Repr, Inhabited

namespace Model

/-- The model's name. -/
def name : Model → String
  | .dmg => "Dmg"
  | .cgb => "Cgb"

/-- The speed switch of a new processor. -/
def speedSwitch : Model → Option SpeedSwitch
  | .dmg => none
  | .cgb => some .initial

/-- The registers at the moment the boot program hands over to a cartridge. -/
def bootRegisters : Model → Registers
  | .dmg =>
    { a := 0x01, f := { z := true, n := false, h := true, c := true }
      b := 0x00, c := 0x13, d := 0x00, e := 0xD8, h := 0x01, l := 0x4D, sp := 0xFFFE, pc := 0x0100 }
  | .cgb =>
    { a := 0x11, f := { z := true, n := false, h := false, c := false }
      b := 0x00, c := 0x00, d := 0xFF, e := 0x56, h := 0x00, l := 0x0D, sp := 0xFFFE, pc := 0x0100 }

/-- The registers after a reset, with or without the boot program to run. -/
def initialRegisters (model : Model) (skipBoot : Bool) : Registers :=
  if skipBoot then model.bootRegisters else .zero

end Model

/-- The state of the processor. -/
structure Cpu where
  regs : Registers
  /-- Interrupts are enabled. -/
  ime : Bool
  /-- Enabling was asked for since the last boundary. -/
  imePending : Bool
  /-- Enabling is due at the next boundary. -/
  imeDelay : Bool
  /-- No instructions are fetched until an interrupt is requested. -/
  halted : Bool
  /-- The next move of the program counter will not happen. -/
  haltBug : Bool
  model : Model
  /-- The speed switch, where the model has one. -/
  speed : Option SpeedSwitch
  scratch : ScratchStack
  /-- The instruction under way, if there is one. -/
  suspended : Option Suspension
  /-- Where the opcode of the last instruction was fetched. -/
  opcodeAddress : UInt16
  /-- Machine cycles since the last reset. -/
  cycles : Nat
  deriving Repr

namespace Cpu

/-- Whether the processor is between two instructions. -/
def atBoundary (cpu : Cpu) : Bool := cpu.suspended.isNone

/-- Whether the processor runs at double speed. -/
def doubleSpeed (cpu : Cpu) : Bool := cpu.speed.any (·.doubleSpeed)

/-- A processor whose scratch stack is given and all else as after a reset. -/
def ofScratch (model : Model) (skipBoot : Bool) (scratch : ScratchStack) : Cpu :=
  { regs := model.initialRegisters skipBoot
    ime := false
    imePending := false
    imeDelay := false
    halted := false
    haltBug := false
    model := model
    speed := model.speedSwitch
    scratch := scratch
    suspended := none
    opcodeAddress := 0
    cycles := 0 }

/-- A new processor. -/
def new (model : Model) (skipBoot : Bool) : Cpu := ofScratch model skipBoot .empty

instance : Inhabited Cpu := ⟨new .dmg true⟩

/-- Reset, keeping the model.  The scratch stack is emptied but its buffer stays. -/
def reset (cpu : Cpu) (skipBoot : Bool) : Cpu := ofScratch cpu.model skipBoot cpu.scratch.clear

end Cpu

end Sm83
