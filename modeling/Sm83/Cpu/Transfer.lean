import Sm83.Alu.Arithmetic
import Sm83.Alu.Decimal
import Sm83.Alu.Shift
import Sm83.Alu.Wide
import Sm83.Cpu

/-!
# Carrying out transfers

What the steps inside the processor do to its state.  They run in a state that survives a failure of
the scratch stack, and neither the bus nor the record of events is in it.
-/

namespace Sm83

/-- Computations on the processor alone. -/
abbrev CpuM := EStateM Fault Cpu

namespace Cpu

/-! ## Parts of the state -/

/-- Run an operation of the scratch stack. -/
def onScratch {α : Type} (op : EStateM Fault ScratchStack α) : CpuM α := fun cpu =>
  match op cpu.scratch with
  | .ok value scratch => .ok value { cpu with scratch := scratch }
  | .error fault scratch => .error fault { cpu with scratch := scratch }

/-- Put a byte on the scratch stack. -/
def pushByte (value : UInt8) : CpuM Unit := onScratch (ScratchStack.pushByte value)

/-- Put a word on the scratch stack. -/
def pushWord (value : UInt16) : CpuM Unit := onScratch (ScratchStack.pushWord value)

/-- Take a byte off the scratch stack. -/
def popByte : CpuM UInt8 := onScratch ScratchStack.popByte

/-- Take a word off the scratch stack. -/
def popWord : CpuM UInt16 := onScratch ScratchStack.popWord

/-- The registers. -/
def getRegs : CpuM Registers := fun cpu => .ok cpu.regs cpu

/-- Change the registers. -/
def modifyRegs (f : Registers → Registers) : CpuM Unit := fun cpu =>
  .ok () { cpu with regs := f cpu.regs }

end Cpu

/-! ## Operations -/

/-- The result of an accumulator operation and the flags after it.  The carry is the incoming one. -/
def AluOp.apply (op : AluOp) (a b : UInt8) (carry : Bool) : UInt8 × Flags :=
  match op with
  | .add => Alu.add a b false
  | .adc => Alu.add a b carry
  | .sub | .cp => Alu.sub a b false
  | .sbc => Alu.sub a b carry
  | .and => Alu.and a b
  | .xor => Alu.xor a b
  | .or => Alu.or a b

/-- The result of an operation on one byte and the flags after it. -/
def UnaryOp.apply (op : UnaryOp) (value : UInt8) (flags : Flags) : UInt8 × Flags :=
  match op with
  | .inc => Alu.inc value flags
  | .dec => Alu.dec value flags
  | .rlc => Alu.rlc value true
  | .rrc => Alu.rrc value true
  | .rl => Alu.rl value flags.c true
  | .rr => Alu.rr value flags.c true
  | .sla => Alu.sla value
  | .sra => Alu.sra value
  | .swap => Alu.swap value
  | .srl => Alu.srl value
  | .rlca => Alu.rlc value false
  | .rrca => Alu.rrc value false
  | .rla => Alu.rl value flags.c false
  | .rra => Alu.rr value flags.c false
  | .set n => (Alu.set n value, flags)
  | .res n => (Alu.res n value, flags)

/-- The accumulator and the flags after an adjustment. -/
def Adjustment.apply (op : Adjustment) (a : UInt8) (flags : Flags) : UInt8 × Flags :=
  match op with
  | .daa => Alu.daa a flags
  | .cpl => Alu.cpl a flags
  | .scf => (a, Alu.scf flags)
  | .ccf => (a, Alu.ccf flags)

/-! ## Steps -/

open Cpu in
/-- Carry out a step inside the processor. -/
def Transfer.run : Transfer → CpuM Unit
  | .loadByte reg => do
    pushByte ((← getRegs).byte reg)
  | .storeByte reg => do
    let value ← popByte
    modifyRegs (·.setByte reg value)
  | .loadWord reg => do
    pushWord ((← getRegs).word reg)
  | .storeWord reg => do
    let value ← popWord
    modifyRegs (·.setWord reg value)
  | .constant value => pushWord value
  | .advancePc => modify fun cpu =>
    if cpu.haltBug then { cpu with haltBug := false }
    else { cpu with regs := { cpu.regs with pc := cpu.regs.pc + 1 } }
  | .highPage => do
    let offset ← popByte
    pushWord (Word.ofBytes 0xFF offset)
  | .alu op => do
    let b ← popByte
    let a ← popByte
    let (result, flags) := op.apply a b (← getRegs).f.c
    modifyRegs ({ · with f := flags })
    if op = .cp then pure () else pushByte result
  | .unary op => do
    let value ← popByte
    let (result, flags) := op.apply value (← getRegs).f
    modifyRegs ({ · with f := flags })
    pushByte result
  | .testBit n => do
    let value ← popByte
    modifyRegs fun r => { r with f := Alu.bit n value r.f }
  | .incWord => do
    let value ← popWord
    pushWord (value + 1)
  | .decWord => do
    let value ← popWord
    pushWord (value - 1)
  | .addWords => do
    let b ← popWord
    let a ← popWord
    let (result, flags) := Alu.add16 a b (← getRegs).f
    modifyRegs ({ · with f := flags })
    pushWord result
  | .addSpOffset => do
    let offset ← popByte
    let (result, flags) := Alu.addSp (← getRegs).sp offset
    modifyRegs ({ · with f := flags })
    pushWord result
  | .jumpRelative => do
    let offset ← popByte
    modifyRegs fun r => { r with pc := r.pc + Word.signExtend offset }
  | .stackSlot => do
    modifyRegs fun r => { r with sp := r.sp - 2 }
    pushWord (← getRegs).sp
  | .incSp => modifyRegs fun r => { r with sp := r.sp + 1 }
  | .splitWord highFirst => do
    let address ← popWord
    let value ← popWord
    let low := (Word.low value, address)
    let high := (Word.high value, address + 1)
    let (first, second) := if highFirst then (high, low) else (low, high)
    pushByte second.1
    pushWord second.2
    pushByte first.1
    pushWord first.2
  | .incHl => modifyRegs fun r => r.setWord .hl (r.word .hl + 1)
  | .decHl => modifyRegs fun r => r.setWord .hl (r.word .hl - 1)
  | .adjust op => modifyRegs fun r =>
    let (a, flags) := op.apply r.a r.f
    { r with a := a, f := flags }
  | .enableInterruptsLater => modify fun cpu =>
    { cpu with imePending := cpu.imePending || !cpu.ime }
  | .disableInterrupts => modify fun cpu =>
    { cpu with ime := false, imePending := false, imeDelay := false }
  | .enableInterrupts => modify fun cpu => { cpu with ime := true }

end Sm83
