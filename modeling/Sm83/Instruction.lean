import Sm83.MicroStep

/-!
# Instructions

The instruction set by meaning.  An opcode names an operation and, in fixed bit fields, its operands;
here the operation is the constructor and the operands are its arguments.  Instructions behind the
`0xCB` prefix are a type of their own: they all work on one byte.
-/

namespace Sm83

/-- A byte operand that can be read and written. -/
inductive Place
  /-- A byte register. -/
  | reg (r : Reg8)
  /-- The byte at the address in `HL`. -/
  | atHl
  deriving DecidableEq, Repr

/-- A byte operand that can be read. -/
inductive Source
  | place (p : Place)
  /-- The byte after the opcode. -/
  | immediate
  deriving DecidableEq, Repr

/-- An address in a register pair through which the accumulator is loaded and stored. -/
inductive Pointer
  | bc | de
  /-- `HL`, which is incremented afterwards. -/
  | hlInc
  /-- `HL`, which is decremented afterwards. -/
  | hlDec
  deriving DecidableEq, Repr

/-- What an unprefixed opcode means. -/
inductive Instruction
  | nop
  | stop
  | halt
  /-- An opcode without meaning. -/
  | undefined
  /-- The byte after the opcode selects a `PrefixedInstruction`. -/
  | prefixed
  -- byte loads
  | load (dst src : Place)
  | loadImmediate (dst : Place)
  | storeA (pointer : Pointer)
  | loadA (pointer : Pointer)
  /-- Store the accumulator in the last page, at an offset in the code. -/
  | storeAHigh
  /-- Load the accumulator from the last page, at an offset in the code. -/
  | loadAHigh
  /-- Store the accumulator in the last page, at the offset in `C`. -/
  | storeAHighC
  /-- Load the accumulator from the last page, at the offset in `C`. -/
  | loadAHighC
  /-- Store the accumulator at an address in the code. -/
  | storeAAbsolute
  /-- Load the accumulator from an address in the code. -/
  | loadAAbsolute
  -- word loads
  | loadWordImmediate (dst : Reg16)
  /-- Store the stack pointer at an address in the code. -/
  | storeSp
  | loadSpHl
  /-- Load `HL` with the stack pointer moved by a displacement in the code. -/
  | loadHlSpOffset
  | push (reg : Reg16)
  | pop (reg : Reg16)
  -- arithmetic
  | accumulate (op : AluOp) (src : Source)
  | modify (op : UnaryOp) (place : Place)
  | adjust (op : Adjustment)
  | incWord (reg : Reg16)
  | decWord (reg : Reg16)
  | addHl (src : Reg16)
  /-- Move the stack pointer by a displacement in the code. -/
  | addSpOffset
  -- control flow
  | jumpRelative (condition : Condition)
  | jump (condition : Condition)
  | jumpHl
  | call (condition : Condition)
  | ret
  | retIf (condition : Condition)
  /-- Return and enable interrupts. -/
  | reti
  /-- Call one of eight fixed addresses. -/
  | restart (target : Fin 8)
  -- interrupts
  | disableInterrupts
  | enableInterrupts
  deriving DecidableEq, Repr

/-- What the byte after the prefix means. -/
inductive PrefixedInstruction
  | modify (op : UnaryOp) (place : Place)
  | testBit (n : Fin 8) (place : Place)
  deriving DecidableEq, Repr

/-- The two tables an opcode can be looked up in. -/
inductive OpcodeTable
  /-- Opcodes at the start of an instruction. -/
  | base
  /-- Opcodes after the `0xCB` prefix. -/
  | prefixed
  deriving DecidableEq, Repr

end Sm83
