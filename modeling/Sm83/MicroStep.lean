import Sm83.Condition
import Sm83.Registers

/-!
# Micro-steps

An instruction is carried out as a row of micro-steps that hand operands to each other over the
scratch stack.  Three of them occupy the bus and take a machine cycle each; all others happen in no
time beside the cycle before or after them.  The types draw that line, because everything else rests
on it: how long an instruction takes, what a single cycle may do to the outside, and where an
instruction can be waiting when a cycle is over.

* `Transfer` — moves and computations inside the processor.  They never see the bus.
* `Control` — the few steps in no time that reach further: `HALT`, `STOP`, undefined opcodes and the
  acknowledge of an interrupt.
* `MachineCycle` — read, write or wait.
* `Microprogram` — the row of steps of one instruction and how it ends.
* `Suspension` — an instruction between two cycles: the cycle it waits for and what follows.  An
  instruction that waits for nothing is over, so this is all a processor has to remember.

Where a comment writes `before -- after`, it means the scratch stack, top to the right; `b` is a byte
and `w` a word.
-/

namespace Sm83

/-! ## Operations -/

/-- An operation of the accumulator with a second operand. -/
inductive AluOp
  | add | adc | sub | sbc | and | xor | or
  /-- Comparison: a subtraction whose result is dropped. -/
  | cp
  deriving DecidableEq, Repr

/-- An operation on one byte.  The last four rotates are those of the accumulator, which never set
the zero flag. -/
inductive UnaryOp
  | inc | dec
  | rlc | rrc | rl | rr | sla | sra | swap | srl
  | rlca | rrca | rla | rra
  | set (n : Fin 8)
  | res (n : Fin 8)
  deriving DecidableEq, Repr

/-- An operation on the accumulator and the flags alone. -/
inductive Adjustment
  | daa | cpl | scf | ccf
  deriving DecidableEq, Repr

/-! ## Steps -/

/-- A step inside the processor. -/
inductive Transfer
  /-- Load a byte register: `-- b`. -/
  | loadByte (reg : Reg8)
  /-- Store into a byte register: `b --`. -/
  | storeByte (reg : Reg8)
  /-- Load a word register: `-- w`. -/
  | loadWord (reg : Reg16)
  /-- Store into a word register: `w --`. -/
  | storeWord (reg : Reg16)
  /-- Load a constant: `-- w`. -/
  | constant (value : UInt16)
  /-- Move the program counter on, or disarm the HALT bug instead where it is armed. -/
  | advancePc
  /-- Make an address in the last page: `b -- w`. -/
  | highPage
  /-- Combine two bytes: `b b -- b`, or `b b --` for a comparison. -/
  | alu (op : AluOp)
  /-- Change a byte: `b -- b`. -/
  | unary (op : UnaryOp)
  /-- Test one bit of a byte: `b --`. -/
  | testBit (n : Fin 8)
  /-- Add one to a word: `w -- w`. -/
  | incWord
  /-- Subtract one from a word: `w -- w`. -/
  | decWord
  /-- Add two words: `w w -- w`. -/
  | addWords
  /-- Add a displacement to the stack pointer: `b -- w`. -/
  | addSpOffset
  /-- Move the program counter by a displacement: `b --`. -/
  | jumpRelative
  /-- Make room for a word on the machine stack and load its address: `-- w`. -/
  | stackSlot
  /-- Add one to the stack pointer. -/
  | incSp
  /-- Turn a word and an address into two bytes with theirs: `w w -- b w b w`.  The byte on top is
  written first: the high one where `highFirst` says so, else the low one. -/
  | splitWord (highFirst : Bool)
  /-- Add one to `HL`. -/
  | incHl
  /-- Subtract one from `HL`. -/
  | decHl
  /-- Change the accumulator and the flags. -/
  | adjust (op : Adjustment)
  /-- Schedule the enabling of interrupts. -/
  | enableInterruptsLater
  /-- Disable interrupts and forget that enabling was scheduled. -/
  | disableInterrupts
  /-- Enable interrupts at once. -/
  | enableInterrupts
  deriving DecidableEq, Repr

/-- A step in no time that looks or speaks outside. -/
inductive Control
  /-- Stop fetching, or arm the HALT bug. -/
  | halt
  /-- Switch speed, where that is prepared. -/
  | stop
  /-- Take note of an opcode that means nothing. -/
  | undefined
  /-- Choose the interrupt to serve and load the address of its handler: `-- w`. -/
  | acknowledge
  deriving DecidableEq, Repr

/-- A step that takes a machine cycle. -/
inductive MachineCycle
  /-- Read from the bus: `w -- b`. -/
  | read
  /-- Write to the bus: `b w --`. -/
  | write
  /-- Wait: `--`. -/
  | delay
  deriving DecidableEq, Repr

/-- One step of an instruction. -/
inductive MicroStep
  | transfer (t : Transfer)
  | control (c : Control)
  | cycle (c : MachineCycle)
  deriving DecidableEq, Repr

/-! ## Rows of steps -/

/-- What follows the last step of a row. -/
inductive Exit
  /-- The instruction is over. -/
  | retire
  /-- Where the condition holds, the steps `taken` follow; else `leftover` bytes are dropped from the
  scratch stack and the instruction is over. -/
  | branch (condition : Condition) (taken : List MicroStep) (leftover : Nat)
  /-- The byte on the scratch stack selects the second half of the instruction: `b --`. -/
  | prefixed
  deriving DecidableEq, Repr

/-- The steps of an instruction and how they end. -/
structure Microprogram where
  steps : List MicroStep
  exit : Exit
  deriving DecidableEq, Repr

/-- An instruction that waits for a machine cycle. -/
structure Suspension where
  /-- The cycle it waits for. -/
  cycle : MachineCycle
  /-- The steps after that cycle. -/
  rest : List MicroStep
  /-- What follows them. -/
  exit : Exit
  deriving DecidableEq, Repr

end Sm83
