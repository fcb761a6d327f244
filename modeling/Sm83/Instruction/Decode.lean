import Sm83.Instruction

/-!
# Decoding opcodes

An opcode is three fields: two bits that select a quadrant of the table, and two fields of three
bits.  The middle two quadrants are regular, loads between any two places and accumulator operations
with any place; `HALT` takes the square of the load that would read and write memory at once.  The
outer two collect everything else.  The first field of an outer quadrant is often a register pair
and one more bit, which is why it is halved and taken modulo two.

Decoding is total: the opcodes that mean nothing decode to `Instruction.undefined`.
-/

namespace Sm83

/-! ## Operand fields -/

/-- The place a three-bit field names. -/
def Place.ofField : Nat → Place
  | 0 => .reg .b
  | 1 => .reg .c
  | 2 => .reg .d
  | 3 => .reg .e
  | 4 => .reg .h
  | 5 => .reg .l
  | 6 => .atHl
  | _ => .reg .a

/-- The pair a two-bit field names in arithmetic and loads. -/
def Reg16.ofField : Nat → Reg16
  | 0 => .bc
  | 1 => .de
  | 2 => .hl
  | _ => .sp

/-- The pair a two-bit field names in pushes and pops. -/
def Reg16.ofStackField : Nat → Reg16
  | 0 => .bc
  | 1 => .de
  | 2 => .hl
  | _ => .af

/-- The address a two-bit field names. -/
def Pointer.ofField : Nat → Pointer
  | 0 => .bc
  | 1 => .de
  | 2 => .hlInc
  | _ => .hlDec

/-- The condition a two-bit field names. -/
def Condition.ofField : Nat → Condition
  | 0 => .nz
  | 1 => .z
  | 2 => .nc
  | _ => .c

/-- The accumulator operation a three-bit field names. -/
def AluOp.ofField : Nat → AluOp
  | 0 => .add
  | 1 => .adc
  | 2 => .sub
  | 3 => .sbc
  | 4 => .and
  | 5 => .xor
  | 6 => .or
  | _ => .cp

/-- The rotate or shift a three-bit field names behind the prefix. -/
def UnaryOp.ofField : Nat → UnaryOp
  | 0 => .rlc
  | 1 => .rrc
  | 2 => .rl
  | 3 => .rr
  | 4 => .sla
  | 5 => .sra
  | 6 => .swap
  | _ => .srl

namespace Instruction

/-! ## The outer quadrants -/

/-- The operations on the accumulator and flags in the last column of the first quadrant. -/
def accumulatorColumn : Nat → Instruction
  | 0 => .modify .rlca (.reg .a)
  | 1 => .modify .rrca (.reg .a)
  | 2 => .modify .rla (.reg .a)
  | 3 => .modify .rra (.reg .a)
  | 4 => .adjust .daa
  | 5 => .adjust .cpl
  | 6 => .adjust .scf
  | _ => .adjust .ccf

/-- Relative jumps and what shares their column. -/
def relativeColumn : Nat → Instruction
  | 0 => .nop
  | 1 => .storeSp
  | 2 => .stop
  | 3 => .jumpRelative .always
  | y => .jumpRelative (.ofField (y - 4))

/-- The quadrant `0x00` to `0x3F`. -/
def firstQuadrant (y z : Nat) : Instruction :=
  match z with
  | 0 => relativeColumn y
  | 1 => if y % 2 = 0 then .loadWordImmediate (.ofField (y / 2)) else .addHl (.ofField (y / 2))
  | 2 => if y % 2 = 0 then .storeA (.ofField (y / 2)) else .loadA (.ofField (y / 2))
  | 3 => if y % 2 = 0 then .incWord (.ofField (y / 2)) else .decWord (.ofField (y / 2))
  | 4 => .modify .inc (.ofField y)
  | 5 => .modify .dec (.ofField y)
  | 6 => .loadImmediate (.ofField y)
  | _ => accumulatorColumn y

/-- Conditional returns and what shares their column. -/
def returnColumn : Nat → Instruction
  | 4 => .storeAHigh
  | 5 => .addSpOffset
  | 6 => .loadAHigh
  | 7 => .loadHlSpOffset
  | y => .retIf (.ofField y)

/-- Pops and what shares their column. -/
def popColumn : Nat → Instruction
  | 1 => .ret
  | 3 => .reti
  | 5 => .jumpHl
  | 7 => .loadSpHl
  | y => .pop (.ofStackField (y / 2))

/-- Conditional jumps and what shares their column. -/
def jumpColumn : Nat → Instruction
  | 4 => .storeAHighC
  | 5 => .storeAAbsolute
  | 6 => .loadAHighC
  | 7 => .loadAAbsolute
  | y => .jump (.ofField y)

/-- The column of the unconditional jump and the prefix. -/
def prefixColumn : Nat → Instruction
  | 0 => .jump .always
  | 1 => .prefixed
  | 6 => .disableInterrupts
  | 7 => .enableInterrupts
  | _ => .undefined

/-- Pushes and the unconditional call. -/
def pushColumn (y : Nat) : Instruction :=
  if y % 2 = 0 then .push (.ofStackField (y / 2))
  else if y = 1 then .call .always
  else .undefined

/-- The quadrant `0xC0` to `0xFF`. -/
def lastQuadrant (y z : Nat) : Instruction :=
  match z with
  | 0 => returnColumn y
  | 1 => popColumn y
  | 2 => jumpColumn y
  | 3 => prefixColumn y
  | 4 => if y < 4 then .call (.ofField y) else .undefined
  | 5 => pushColumn y
  | 6 => .accumulate (.ofField y) .immediate
  | _ => .restart (Fin.ofNat 8 y)

/-! ## The table -/

/-- The instruction an opcode starts. -/
def ofOpcode (opcode : UInt8) : Instruction :=
  let y := opcode.toNat / 8 % 8
  let z := opcode.toNat % 8
  match opcode.toNat / 64 with
  | 0 => firstQuadrant y z
  | 1 => if y = 6 ∧ z = 6 then .halt else .load (.ofField y) (.ofField z)
  | 2 => .accumulate (.ofField y) (.place (.ofField z))
  | _ => lastQuadrant y z

end Instruction

/-- The instruction a byte after the prefix selects. -/
def PrefixedInstruction.ofOpcode (opcode : UInt8) : PrefixedInstruction :=
  let y := opcode.toNat / 8 % 8
  let place := Place.ofField (opcode.toNat % 8)
  match opcode.toNat / 64 with
  | 0 => .modify (.ofField y) place
  | 1 => .testBit (Fin.ofNat 8 y) place
  | 2 => .modify (.res (Fin.ofNat 8 y)) place
  | _ => .modify (.set (Fin.ofNat 8 y)) place

end Sm83
