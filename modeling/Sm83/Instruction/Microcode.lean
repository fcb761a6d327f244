import Sm83.Instruction.Decode

/-!
# Microcode

The microprogram of every instruction.  Composite accesses are short rows of their own, spliced into
the instructions that use them: an operand byte is a read at the program counter, a pop is two reads
at the stack pointer, a change of a place is a read, the change and a write.

Which steps stand where decides the timing.  The opcode itself has been fetched when a microprogram
starts, so an instruction takes one machine cycle more than its microprogram has.
-/

namespace Sm83

/-! ## Short rows -/

namespace Microcode

/-- Steps inside the processor. -/
def internal (ts : List Transfer) : List MicroStep := ts.map .transfer

/-- Read from the address on the scratch stack. -/
def read : List MicroStep := [.cycle .read]

/-- Write the byte under the address on the scratch stack. -/
def write : List MicroStep := [.cycle .write]

/-- Let a machine cycle pass. -/
def delay : List MicroStep := [.cycle .delay]

/-- Read the next byte of the code: `-- b`. -/
def operandByte : List MicroStep := internal [.loadWord .pc, .advancePc] ++ read

/-- Read the next word of the code, low byte first: `-- w`. -/
def operandWord : List MicroStep := operandByte ++ operandByte

/-- Put a word register on the machine stack, high byte first. -/
def pushWord (reg : Reg16) : List MicroStep :=
  internal [.loadWord reg, .stackSlot] ++ delay ++ internal [.splitWord true] ++ write ++ write

/-- Take a word register off the machine stack, low byte first. -/
def popWord (reg : Reg16) : List MicroStep :=
  internal [.loadWord .sp] ++ read ++ internal [.incSp, .loadWord .sp] ++ read
    ++ internal [.incSp, .storeWord reg]

end Microcode

open Microcode

/-- Read a place: `-- b`. -/
def Place.read : Place → List MicroStep
  | .reg r => internal [.loadByte r]
  | .atHl => internal [.loadWord .hl] ++ Microcode.read

/-- Write a place: `b --`. -/
def Place.write : Place → List MicroStep
  | .reg r => internal [.storeByte r]
  | .atHl => internal [.loadWord .hl] ++ Microcode.write

/-- Read a place, change the byte, write it back. -/
def Place.modify (p : Place) (op : UnaryOp) : List MicroStep :=
  p.read ++ internal [.unary op] ++ p.write

/-- Read a source: `-- b`. -/
def Source.read : Source → List MicroStep
  | .place p => p.read
  | .immediate => operandByte

/-- The pair that holds the address. -/
def Pointer.reg : Pointer → Reg16
  | .bc => .bc
  | .de => .de
  | .hlInc | .hlDec => .hl

/-- What happens to the address after its use. -/
def Pointer.update : Pointer → List MicroStep
  | .bc | .de => []
  | .hlInc => internal [.incHl]
  | .hlDec => internal [.decHl]

/-- Put the result of an accumulator operation where it belongs; a comparison has none. -/
def AluOp.keepResult : AluOp → List MicroStep
  | .cp => []
  | _ => internal [.storeByte .a]

/-! ## Instructions -/

/-- A microprogram without a branch. -/
def Microprogram.straight (steps : List MicroStep) : Microprogram := ⟨steps, .retire⟩

/-- What an instruction does after its opcode was fetched. -/
def Instruction.microprogram : Instruction → Microprogram
  | .nop => .straight []
  | .stop => .straight [.control .stop]
  | .halt => .straight [.control .halt]
  | .undefined => .straight [.control .undefined]
  | .prefixed => ⟨operandByte, .prefixed⟩
  | .load dst src => .straight (src.read ++ dst.write)
  | .loadImmediate dst => .straight (operandByte ++ dst.write)
  | .storeA pointer =>
    .straight (internal [.loadByte .a, .loadWord pointer.reg] ++ write ++ pointer.update)
  | .loadA pointer =>
    .straight (internal [.loadWord pointer.reg] ++ read ++ internal [.storeByte .a]
      ++ pointer.update)
  | .storeAHigh =>
    .straight (internal [.loadByte .a] ++ operandByte ++ internal [.highPage] ++ write)
  | .loadAHigh =>
    .straight (operandByte ++ internal [.highPage] ++ read ++ internal [.storeByte .a])
  | .storeAHighC => .straight (internal [.loadByte .a, .loadByte .c, .highPage] ++ write)
  | .loadAHighC =>
    .straight (internal [.loadByte .c, .highPage] ++ read ++ internal [.storeByte .a])
  | .storeAAbsolute => .straight (internal [.loadByte .a] ++ operandWord ++ write)
  | .loadAAbsolute => .straight (operandWord ++ read ++ internal [.storeByte .a])
  | .loadWordImmediate dst => .straight (operandWord ++ internal [.storeWord dst])
  | .storeSp =>
    .straight (internal [.loadWord .sp] ++ operandWord ++ internal [.splitWord false] ++ write
      ++ write)
  | .loadSpHl => .straight (delay ++ internal [.loadWord .hl, .storeWord .sp])
  | .loadHlSpOffset =>
    .straight (operandByte ++ internal [.addSpOffset, .storeWord .hl] ++ delay)
  | .push reg => .straight (pushWord reg)
  | .pop reg => .straight (popWord reg)
  | .accumulate op src =>
    .straight (internal [.loadByte .a] ++ src.read ++ internal [.alu op] ++ op.keepResult)
  | .modify op place => .straight (place.modify op)
  | .adjust op => .straight (internal [.adjust op])
  | .incWord reg => .straight (delay ++ internal [.loadWord reg, .incWord, .storeWord reg])
  | .decWord reg => .straight (delay ++ internal [.loadWord reg, .decWord, .storeWord reg])
  | .addHl src =>
    .straight (delay ++ internal [.loadWord .hl, .loadWord src, .addWords, .storeWord .hl])
  | .addSpOffset =>
    .straight (operandByte ++ internal [.addSpOffset, .storeWord .sp] ++ delay ++ delay)
  | .jumpRelative condition =>
    ⟨operandByte, .branch condition (delay ++ internal [.jumpRelative]) 1⟩
  | .jump condition => ⟨operandWord, .branch condition (delay ++ internal [.storeWord .pc]) 2⟩
  | .jumpHl => .straight (internal [.loadWord .hl, .storeWord .pc])
  | .call condition =>
    ⟨operandWord, .branch condition (pushWord .pc ++ internal [.storeWord .pc]) 2⟩
  | .ret => .straight (popWord .pc ++ delay)
  | .retIf condition => ⟨delay, .branch condition (popWord .pc ++ delay) 0⟩
  | .reti => .straight (popWord .pc ++ delay ++ internal [.enableInterrupts])
  | .restart target =>
    .straight (pushWord .pc
      ++ internal [.constant (UInt16.ofNat (8 * target.val)), .storeWord .pc])
  | .disableInterrupts => .straight (internal [.disableInterrupts])
  | .enableInterrupts => .straight (internal [.enableInterruptsLater])

/-- What a prefixed instruction does after its second byte was read. -/
def PrefixedInstruction.steps : PrefixedInstruction → List MicroStep
  | .modify op place => place.modify op
  | .testBit n place => place.read ++ internal [.testBit n]

/-- How an interrupt is served: acknowledge it, save the program counter, go to the handler. -/
def interruptMicroprogram : Microprogram :=
  .straight ([.control .acknowledge] ++ delay ++ pushWord .pc ++ delay ++ internal [.storeWord .pc])

/-! ## Size -/

/-- How many steps the end of a microprogram takes in a table of all microprograms: the choice of
what follows is one, and so is dropping bytes. -/
def Exit.size : Exit → Nat
  | .retire => 0
  | .branch _ taken leftover => 1 + taken.length + if leftover = 0 then 0 else 1
  | .prefixed => 1

/-- How many steps a microprogram takes in a table; one that does nothing takes one to say so. -/
def Microprogram.size (m : Microprogram) : Nat := max 1 (m.steps.length + m.exit.size)

/-- How many steps the microprograms of all opcodes take, with those of the opcode fetch and of an
interrupt. -/
def microcodeSize : Nat :=
  let opcodes := (List.range 256).map UInt8.ofNat
  let total (size : UInt8 → Nat) := opcodes.foldl (fun sum opcode => sum + size opcode) 0
  Microprogram.size ⟨operandByte, .prefixed⟩ + interruptMicroprogram.size
    + total (fun opcode => (Instruction.ofOpcode opcode).microprogram.size)
    + total (fun opcode => (PrefixedInstruction.ofOpcode opcode).steps.length)

end Sm83
