import Sm83.Cpu.Transfer
import Sm83.Instruction.Decode
import Sm83.Proofs.Microstep.Scene

/-!
# The manual

What the documentation says of the processor, written down apart from the definitions that run: which
bytes make a word, where the flags are in their byte, what registers and pairs hold, when a condition
holds, which operation gives which result, what an access to memory reaches, and what every opcode
stands for.  Results are those of the arithmetic unit, to which the documentation refers; all else is
in numbers, names of registers and a map of the opcodes.

* `joined`, `upper`, `lower`, `displaced` — words.
* `flagByte`, `flagsOf` — flags; `flagByte_flagsOf` says that a byte keeps its upper half.
* `byte`, `setByte`, `word`, `setWord` — registers and pairs.
* `holds`, `combined`, `changed`, `adjusted` — conditions and operations.
* `load`, `store` — memory, with the register of the speed switch in it.
* `instruction`, `prefixedInstruction` — the opcode map.

Beside each of these stands that the definition that runs agrees with it.
-/

namespace Sm83.Manual

/-! ## Words -/

/-- The word with these two bytes. -/
def joined (hi lo : UInt8) : UInt16 := UInt16.ofNat (256 * hi.toNat + lo.toNat)

/-- The upper byte of a word. -/
def upper (w : UInt16) : UInt8 := UInt8.ofNat (w.toNat / 256)

/-- The lower byte of a word. -/
def lower (w : UInt16) : UInt8 := UInt8.ofNat (w.toNat % 256)

/-- The address that lies `offset` bytes further on.  Offsets from 128 on go back, by what they are
short of 256. -/
def displaced (a : UInt16) (offset : UInt8) : UInt16 :=
  if offset.toNat < 128 then a + UInt16.ofNat offset.toNat
  else a - UInt16.ofNat (256 - offset.toNat)

theorem joined_eq (hi lo : UInt8) : joined hi lo = Word.ofBytes hi lo := by
  have := hi.toNat_lt
  have := lo.toNat_lt
  apply UInt16.toNat_inj.1
  rw [joined, Word.toNat_ofBytes, UInt16.toNat_ofNat', Nat.mul_comm]
  omega

theorem upper_eq (w : UInt16) : upper w = Word.high w := by
  have := w.toNat_lt
  apply UInt8.toNat_inj.1
  rw [upper, Word.toNat_high, UInt8.toNat_ofNat']
  omega

theorem lower_eq (w : UInt16) : lower w = Word.low w := by
  apply UInt8.toNat_inj.1
  rw [lower, Word.toNat_low, UInt8.toNat_ofNat']
  omega

theorem displaced_eq (a : UInt16) (offset : UInt8) :
    displaced a offset = a + Word.signExtend offset := by
  have := offset.toNat_lt
  have := a.toNat_lt
  apply UInt16.toNat_inj.1
  rw [displaced, Word.signExtend]
  by_cases forward : offset.toNat < 128
  · rw [if_pos forward, if_pos (UInt8.lt_iff_toNat_lt.2 forward)]
    simp only [UInt16.toNat_add, UInt16.toNat_ofNat', UInt8.toNat_toUInt16]
    omega
  · rw [if_neg forward, if_neg fun lt => forward (UInt8.lt_iff_toNat_lt.1 lt)]
    simp only [UInt16.toNat_add, UInt16.toNat_sub, UInt16.toNat_ofNat', UInt8.toNat_toUInt16,
      UInt16.reduceToNat]
    omega

theorem joined_upper_lower (w : UInt16) : joined (upper w) (lower w) = w := by
  rw [upper_eq, lower_eq, joined_eq, Word.ofBytes_high_low]

/-! ## Flags -/

/-- The byte with the four flags in its upper half. -/
def flagByte (f : Flags) : UInt8 :=
  (if f.z then 0x80 else 0) ||| (if f.n then 0x40 else 0) ||| (if f.h then 0x20 else 0)
    ||| (if f.c then 0x10 else 0)

/-- The flags in a byte. -/
def flagsOf (b : UInt8) : Flags :=
  { z := b &&& 0x80 != 0, n := b &&& 0x40 != 0, h := b &&& 0x20 != 0, c := b &&& 0x10 != 0 }

theorem flagByte_eq (f : Flags) : flagByte f = f.toByte := by
  obtain ⟨z, n, h, c⟩ := f
  cases z <;> cases n <;> cases h <;> cases c <;> rfl

theorem flagsOf_eq (b : UInt8) : flagsOf b = Flags.ofByte b :=
  forall_byte (P := fun b => flagsOf b = Flags.ofByte b) (by decide +kernel) b

/-- Of a byte the lower half is dropped. -/
theorem flagByte_flagsOf (b : UInt8) : flagByte (flagsOf b) = b &&& 0xF0 :=
  forall_byte (P := fun b => flagByte (flagsOf b) = b &&& 0xF0) (by decide +kernel) b

/-! ## Registers -/

/-- The byte in a register. -/
def byte (r : Registers) : Reg8 → UInt8
  | .a => r.a
  | .b => r.b
  | .c => r.c
  | .d => r.d
  | .e => r.e
  | .h => r.h
  | .l => r.l

/-- A byte is put into a register. -/
def setByte (r : Registers) (reg : Reg8) (value : UInt8) : Registers :=
  match reg with
  | .a => { r with a := value }
  | .b => { r with b := value }
  | .c => { r with c := value }
  | .d => { r with d := value }
  | .e => { r with e := value }
  | .h => { r with h := value }
  | .l => { r with l := value }

/-- The word in a pair, or in one of the two word registers. -/
def word (r : Registers) : Reg16 → UInt16
  | .af => joined r.a (flagByte r.f)
  | .bc => joined r.b r.c
  | .de => joined r.d r.e
  | .hl => joined r.h r.l
  | .sp => r.sp
  | .pc => r.pc

/-- A word is put there. -/
def setWord (r : Registers) (reg : Reg16) (value : UInt16) : Registers :=
  match reg with
  | .af => { r with a := upper value, f := flagsOf (lower value) }
  | .bc => { r with b := upper value, c := lower value }
  | .de => { r with d := upper value, e := lower value }
  | .hl => { r with h := upper value, l := lower value }
  | .sp => { r with sp := value }
  | .pc => { r with pc := value }

variable (r : Registers)

theorem byte_eq (reg : Reg8) : byte r reg = r.byte reg := by cases reg <;> rfl

theorem setByte_eq (reg : Reg8) (value : UInt8) : setByte r reg value = r.setByte reg value := by
  cases reg <;> rfl

theorem word_eq (reg : Reg16) : word r reg = r.word reg := by
  cases reg with
  | af => rw [word, joined_eq, flagByte_eq, Registers.word]
  | bc | de | hl => exact joined_eq _ _
  | sp | pc => rfl

theorem setWord_eq (reg : Reg16) (value : UInt16) : setWord r reg value = r.setWord reg value := by
  cases reg with
  | af => rw [setWord, upper_eq, flagsOf_eq, lower_eq, Registers.setWord]
  | bc | de | hl => rw [setWord, upper_eq, lower_eq, Registers.setWord]
  | sp | pc => rfl

/-! ## Conditions and operations -/

/-- Whether flags meet a condition: all of the flags in a mask are set, or not all of them are. -/
def holds (f : Flags) : Condition → Bool
  | .always => true
  | .flags mask expected =>
    ((f.z || !mask.z) && (f.n || !mask.n) && (f.h || !mask.h) && (f.c || !mask.c)) == expected

/-- The accumulator and the flags after an operation with another byte. -/
def combined (op : AluOp) (a b : UInt8) (carry : Bool) : UInt8 × Flags :=
  match op with
  | .add => Alu.add a b false
  | .adc => Alu.add a b carry
  | .sub => Alu.sub a b false
  | .sbc => Alu.sub a b carry
  | .and => Alu.and a b
  | .xor => Alu.xor a b
  | .or => Alu.or a b
  -- the accumulator is kept
  | .cp => (a, (Alu.sub a b false).2)

/-- A byte and the flags after an operation on that byte. -/
def changed (op : UnaryOp) (value : UInt8) (f : Flags) : UInt8 × Flags :=
  match op with
  | .inc => Alu.inc value f
  | .dec => Alu.dec value f
  | .rlc => Alu.rlc value true
  | .rrc => Alu.rrc value true
  | .rl => Alu.rl value f.c true
  | .rr => Alu.rr value f.c true
  | .sla => Alu.sla value
  | .sra => Alu.sra value
  | .swap => Alu.swap value
  | .srl => Alu.srl value
  -- these clear the zero flag
  | .rlca => Alu.rlc value false
  | .rrca => Alu.rrc value false
  | .rla => Alu.rl value f.c false
  | .rra => Alu.rr value f.c false
  | .set n => (Alu.set n value, f)
  | .res n => (Alu.res n value, f)

/-- The accumulator and the flags after an operation on these two. -/
def adjusted (op : Adjustment) (a : UInt8) (f : Flags) : UInt8 × Flags :=
  match op with
  | .daa => Alu.daa a f
  | .cpl => Alu.cpl a f
  | .scf => (a, Alu.scf f)
  | .ccf => (a, Alu.ccf f)

theorem holds_eq (f : Flags) (condition : Condition) : holds f condition = condition.holds f := by
  cases condition with
  | always => rfl
  | flags mask expected =>
    rw [holds, Condition.holds, Flags.contains, Bool.or_comm f.z, Bool.or_comm f.n,
      Bool.or_comm f.h, Bool.or_comm f.c]

theorem changed_eq (op : UnaryOp) (value : UInt8) (f : Flags) :
    changed op value f = op.apply value f := by cases op <;> rfl

theorem adjusted_eq (op : Adjustment) (a : UInt8) (f : Flags) :
    adjusted op a f = op.apply a f := by cases op <;> rfl

/-! ## Memory -/

section Memory

variable {β : Type} [Bus β]

/-- The byte at an address.  Where there is a speed switch, `0xFF4D` is its register, with the speed in
the top bit, the preparation in the lowest, and ones in between. -/
def load (a : UInt16) (o : Outside β) : UInt8 × Outside β :=
  match if a = 0xFF4D then o.speed else none with
  | some speed =>
    let value := (if speed.doubleSpeed then 0x80 else 0) ||| 0x7E ||| if speed.prepared then 1 else 0
    (value, o.note (.speedRead value))
  | none => ((Bus.read a o.bus).1, { o with bus := (Bus.read a o.bus).2 })

/-- A byte is written to an address.  Of the register only the lowest bit can be written. -/
def store (a : UInt16) (value : UInt8) (o : Outside β) : Outside β :=
  match if a = 0xFF4D then o.speed else none with
  | some speed =>
    { o with speed := some ⟨speed.doubleSpeed, value &&& 1 != 0⟩ }.note (.speedWritten value)
  | none => { o with bus := Bus.write a value o.bus }

theorem load_eq (a : UInt16) (o : Outside β) : load a o = o.load a := by
  rw [load, Outside.load, Outside.speedAt?, SpeedSwitch.address]
  cases if a = 0xFF4D then o.speed else none with
  | some speed =>
    obtain ⟨doubleSpeed, prepared⟩ := speed
    cases doubleSpeed <;> cases prepared <;> rfl
  | none => rfl

theorem store_eq (a : UInt16) (value : UInt8) (o : Outside β) : store a value o = o.store a value := by
  have lowest : (value &&& 1 != 0) = value.toNat.testBit 0 :=
    forall_byte (P := fun b => (b &&& 1 != 0) = b.toNat.testBit 0) (by decide +kernel) value
  rw [store, Outside.store, Outside.speedAt?, SpeedSwitch.address]
  cases if a = 0xFF4D then o.speed else none with
  | some speed =>
    rw [lowest]
    rfl
  | none => rfl

end Memory

/-! ## The opcode map -/

/-- The zero flag is clear, or set; the carry is clear, or set. -/
def nz : Condition := .flags ⟨true, false, false, false⟩ false

@[inherit_doc nz]
def z : Condition := .flags ⟨true, false, false, false⟩ true

@[inherit_doc nz]
def nc : Condition := .flags ⟨false, false, false, true⟩ false

@[inherit_doc nz]
def c : Condition := .flags ⟨false, false, false, true⟩ true

/-- The byte operands, in the order of their numbers. -/
def places : List Place :=
  [.reg .b, .reg .c, .reg .d, .reg .e, .reg .h, .reg .l, .atHl, .reg .a]

/-- The operations of the accumulator, in the order of their numbers. -/
def operations : List AluOp := [.add, .adc, .sub, .sbc, .and, .xor, .or, .cp]

/-- The opcodes from `0x00` to `0x3F`. -/
def firstQuarter : List Instruction :=
  [.nop, .loadWordImmediate .bc, .storeA .bc, .incWord .bc,
    .modify .inc (.reg .b), .modify .dec (.reg .b), .loadImmediate (.reg .b), .modify .rlca (.reg .a),
    .storeSp, .addHl .bc, .loadA .bc, .decWord .bc,
    .modify .inc (.reg .c), .modify .dec (.reg .c), .loadImmediate (.reg .c), .modify .rrca (.reg .a),
    .stop, .loadWordImmediate .de, .storeA .de, .incWord .de,
    .modify .inc (.reg .d), .modify .dec (.reg .d), .loadImmediate (.reg .d), .modify .rla (.reg .a),
    .jumpRelative .always, .addHl .de, .loadA .de, .decWord .de,
    .modify .inc (.reg .e), .modify .dec (.reg .e), .loadImmediate (.reg .e), .modify .rra (.reg .a),
    .jumpRelative nz, .loadWordImmediate .hl, .storeA .hlInc, .incWord .hl,
    .modify .inc (.reg .h), .modify .dec (.reg .h), .loadImmediate (.reg .h), .adjust .daa,
    .jumpRelative z, .addHl .hl, .loadA .hlInc, .decWord .hl,
    .modify .inc (.reg .l), .modify .dec (.reg .l), .loadImmediate (.reg .l), .adjust .cpl,
    .jumpRelative nc, .loadWordImmediate .sp, .storeA .hlDec, .incWord .sp,
    .modify .inc .atHl, .modify .dec .atHl, .loadImmediate .atHl, .adjust .scf,
    .jumpRelative c, .addHl .sp, .loadA .hlDec, .decWord .sp,
    .modify .inc (.reg .a), .modify .dec (.reg .a), .loadImmediate (.reg .a), .adjust .ccf]

/-- The opcodes from `0x40` to `0x7F`: loads, with `HALT` at `0x76`. -/
def secondQuarter : List Instruction :=
  (places.flatMap fun dst => places.map fun src => Instruction.load dst src).set 0x36 .halt

/-- The opcodes from `0x80` to `0xBF`. -/
def thirdQuarter : List Instruction :=
  operations.flatMap fun op => places.map fun src => .accumulate op (.place src)

/-- The opcodes from `0xC0` to `0xFF`, in rows of eight without the last. -/
def lastRows : List (List Instruction) :=
  [[.retIf nz, .pop .bc, .jump nz, .jump .always,
      .call nz, .push .bc, .accumulate .add .immediate],
    [.retIf z, .ret, .jump z, .prefixed,
      .call z, .call .always, .accumulate .adc .immediate],
    [.retIf nc, .pop .de, .jump nc, .undefined,
      .call nc, .push .de, .accumulate .sub .immediate],
    [.retIf c, .reti, .jump c, .undefined,
      .call c, .undefined, .accumulate .sbc .immediate],
    [.storeAHigh, .pop .hl, .storeAHighC, .undefined,
      .undefined, .push .hl, .accumulate .and .immediate],
    [.addSpOffset, .jumpHl, .storeAAbsolute, .undefined,
      .undefined, .undefined, .accumulate .xor .immediate],
    [.loadAHigh, .pop .af, .loadAHighC, .disableInterrupts,
      .undefined, .push .af, .accumulate .or .immediate],
    [.loadHlSpOffset, .loadSpHl, .loadAAbsolute, .enableInterrupts,
      .undefined, .undefined, .accumulate .cp .immediate]]

/-- The opcodes from `0xC0` to `0xFF`: the last of each row is a restart. -/
def lastQuarter : List Instruction :=
  (lastRows.zip (List.finRange 8)).flatMap fun (row, target) => row ++ [.restart target]

/-- What an opcode stands for. -/
def instruction (opcode : UInt8) : Instruction :=
  (firstQuarter ++ secondQuarter ++ thirdQuarter ++ lastQuarter).getD opcode.toNat .undefined

/-- The rotates and shifts behind the prefix, in the order of their numbers. -/
def shifts : List UnaryOp := [.rlc, .rrc, .rl, .rr, .sla, .sra, .swap, .srl]

/-- The opcodes behind the prefix: shifts, tests of a bit, clearing and setting a bit. -/
def prefixedOpcodes : List PrefixedInstruction :=
  (shifts.flatMap fun op => places.map fun p => .modify op p)
    ++ ((List.finRange 8).flatMap fun n => places.map fun p => .testBit n p)
    ++ ((List.finRange 8).flatMap fun n => places.map fun p => .modify (.res n) p)
    ++ ((List.finRange 8).flatMap fun n => places.map fun p => .modify (.set n) p)

/-- What the byte behind the prefix stands for. -/
def prefixedInstruction (opcode : UInt8) : PrefixedInstruction :=
  prefixedOpcodes.getD opcode.toNat (.modify .rlc (.reg .b))

theorem instruction_eq (opcode : UInt8) : instruction opcode = Instruction.ofOpcode opcode :=
  forall_byte (P := fun b => instruction b = Instruction.ofOpcode b) (by decide +kernel) opcode

theorem prefixedInstruction_eq (opcode : UInt8) :
    prefixedInstruction opcode = PrefixedInstruction.ofOpcode opcode :=
  forall_byte (P := fun b => prefixedInstruction b = PrefixedInstruction.ofOpcode b)
    (by decide +kernel) opcode

end Sm83.Manual
