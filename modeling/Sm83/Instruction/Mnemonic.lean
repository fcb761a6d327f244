import Sm83.Instruction.Decode

/-!
# Mnemonics

The assembly text of an instruction.  Bytes in the code are shown by what they are: `n` a byte, `nn`
a word, `e` a displacement; memory operands stand in parentheses.
-/

namespace Sm83

/-- The condition's name; the unconditional form has none. -/
def Condition.name : Condition → String
  | .always => ""
  | .flags mask expected =>
    (if expected then "" else "N") ++ cond mask.z "Z" "" ++ cond mask.n "N" "" ++ cond mask.h "H" ""
      ++ cond mask.c "C" ""

/-- The condition in front of an operand, with the comma between them. -/
def Condition.beforeOperand : Condition → String
  | .always => ""
  | condition => condition.name ++ ","

/-- The place as an operand. -/
def Place.name : Place → String
  | .reg r => r.name
  | .atHl => "(HL)"

/-- The source as an operand. -/
def Source.name : Source → String
  | .place p => p.name
  | .immediate => "n"

/-- The address as an operand. -/
def Pointer.name : Pointer → String
  | .bc => "(BC)"
  | .de => "(DE)"
  | .hlInc => "(HL+)"
  | .hlDec => "(HL-)"

/-- The operation with everything in front of its operand. -/
def AluOp.lead : AluOp → String
  | .add => "ADD A,"
  | .adc => "ADC A,"
  | .sub => "SUB "
  | .sbc => "SBC A,"
  | .and => "AND "
  | .xor => "XOR "
  | .or => "OR "
  | .cp => "CP "

/-- The operation applied to an operand.  Only the accumulator forms of the rotates name no operand,
and the bit operations name the bit first. -/
def UnaryOp.text (op : UnaryOp) (operand : String) : String :=
  match op with
  | .inc => "INC " ++ operand
  | .dec => "DEC " ++ operand
  | .rlc => "RLC " ++ operand
  | .rrc => "RRC " ++ operand
  | .rl => "RL " ++ operand
  | .rr => "RR " ++ operand
  | .sla => "SLA " ++ operand
  | .sra => "SRA " ++ operand
  | .swap => "SWAP " ++ operand
  | .srl => "SRL " ++ operand
  | .rlca => "RLCA"
  | .rrca => "RRCA"
  | .rla => "RLA"
  | .rra => "RRA"
  | .set n => "SET " ++ toString n.val ++ "," ++ operand
  | .res n => "RES " ++ toString n.val ++ "," ++ operand

/-- The name of the operation. -/
def Adjustment.name : Adjustment → String
  | .daa => "DAA"
  | .cpl => "CPL"
  | .scf => "SCF"
  | .ccf => "CCF"

/-- The assembly text of an instruction. -/
def Instruction.mnemonic : Instruction → String
  | .nop => "NOP"
  | .stop => "STOP"
  | .halt => "HALT"
  | .undefined => "ILLEGAL"
  | .prefixed => "PREFIX CB"
  | .load dst src => "LD " ++ dst.name ++ "," ++ src.name
  | .loadImmediate dst => "LD " ++ dst.name ++ ",n"
  | .storeA pointer => "LD " ++ pointer.name ++ ",A"
  | .loadA pointer => "LD A," ++ pointer.name
  | .storeAHigh => "LDH (n),A"
  | .loadAHigh => "LDH A,(n)"
  | .storeAHighC => "LD (C),A"
  | .loadAHighC => "LD A,(C)"
  | .storeAAbsolute => "LD (nn),A"
  | .loadAAbsolute => "LD A,(nn)"
  | .loadWordImmediate dst => "LD " ++ dst.name ++ ",nn"
  | .storeSp => "LD (nn),SP"
  | .loadSpHl => "LD SP,HL"
  | .loadHlSpOffset => "LD HL,SP+e"
  | .push reg => "PUSH " ++ reg.name
  | .pop reg => "POP " ++ reg.name
  | .accumulate op src => op.lead ++ src.name
  | .modify op place => op.text place.name
  | .adjust op => op.name
  | .incWord reg => "INC " ++ reg.name
  | .decWord reg => "DEC " ++ reg.name
  | .addHl src => "ADD HL," ++ src.name
  | .addSpOffset => "ADD SP,e"
  | .jumpRelative condition => "JR " ++ condition.beforeOperand ++ "e"
  | .jump condition => "JP " ++ condition.beforeOperand ++ "nn"
  | .jumpHl => "JP HL"
  | .call condition => "CALL " ++ condition.beforeOperand ++ "nn"
  | .ret => "RET"
  | .retIf condition => "RET " ++ condition.name
  | .reti => "RETI"
  | .restart target => "RST " ++ Text.Hex.fixed 2 (8 * target.val) ++ "H"
  | .disableInterrupts => "DI"
  | .enableInterrupts => "EI"

/-- The assembly text of a prefixed instruction. -/
def PrefixedInstruction.mnemonic : PrefixedInstruction → String
  | .modify op place => op.text place.name
  | .testBit n place => "BIT " ++ toString n.val ++ "," ++ place.name

/-- The assembly text of what an opcode means in a table. -/
def OpcodeTable.mnemonic (table : OpcodeTable) (opcode : UInt8) : String :=
  match table with
  | .base => (Instruction.ofOpcode opcode).mnemonic
  | .prefixed => (PrefixedInstruction.ofOpcode opcode).mnemonic

end Sm83
