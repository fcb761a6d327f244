import Sm83.Flags
import Sm83.Text.Hex
import Sm83.Word

/-!
# The register file

Seven byte registers, the flags, the stack pointer and the program counter.  Instructions also see
the bytes in pairs, high register first: `BC`, `DE`, `HL`, and `AF` with the flags as its low byte.
Pairs are views and nothing is stored twice.

`word_setWord` is the law of a view: what is written is what is read back, except that `AF` cannot
hold the low nibble of its flag byte (`word_setWord_af`).
-/

namespace Sm83

/-- A byte register that an opcode can name. -/
inductive Reg8
  | a | b | c | d | e | h | l
  deriving DecidableEq, Repr, Inhabited

/-- A word register, or a pair of byte registers read as one. -/
inductive Reg16
  | af | bc | de | hl | sp | pc
  deriving DecidableEq, Repr, Inhabited

/-- The register's name in assembly text. -/
def Reg8.name : Reg8 → String
  | .a => "A"
  | .b => "B"
  | .c => "C"
  | .d => "D"
  | .e => "E"
  | .h => "H"
  | .l => "L"

/-- The register's name in assembly text. -/
def Reg16.name : Reg16 → String
  | .af => "AF"
  | .bc => "BC"
  | .de => "DE"
  | .hl => "HL"
  | .sp => "SP"
  | .pc => "PC"

/-- The contents of all registers. -/
structure Registers where
  a : UInt8
  f : Flags
  b : UInt8
  c : UInt8
  d : UInt8
  e : UInt8
  h : UInt8
  l : UInt8
  sp : UInt16
  pc : UInt16
  deriving DecidableEq, Repr, Inhabited

namespace Registers

/-- Every register zero and every flag clear. -/
def zero : Registers :=
  { a := 0, f := Flags.empty, b := 0, c := 0, d := 0, e := 0, h := 0, l := 0, sp := 0, pc := 0 }

/-- The byte in a register. -/
def byte (r : Registers) : Reg8 → UInt8
  | .a => r.a
  | .b => r.b
  | .c => r.c
  | .d => r.d
  | .e => r.e
  | .h => r.h
  | .l => r.l

/-- Put a byte into a register. -/
def setByte (r : Registers) (reg : Reg8) (value : UInt8) : Registers :=
  match reg with
  | .a => { r with a := value }
  | .b => { r with b := value }
  | .c => { r with c := value }
  | .d => { r with d := value }
  | .e => { r with e := value }
  | .h => { r with h := value }
  | .l => { r with l := value }

/-- The word in a register or pair. -/
def word (r : Registers) : Reg16 → UInt16
  | .af => Word.ofBytes r.a r.f.toByte
  | .bc => Word.ofBytes r.b r.c
  | .de => Word.ofBytes r.d r.e
  | .hl => Word.ofBytes r.h r.l
  | .sp => r.sp
  | .pc => r.pc

/-- Put a word into a register or pair.  Of the low byte of `AF` only the flags are kept. -/
def setWord (r : Registers) (reg : Reg16) (value : UInt16) : Registers :=
  match reg with
  | .af => { r with a := Word.high value, f := Flags.ofByte (Word.low value) }
  | .bc => { r with b := Word.high value, c := Word.low value }
  | .de => { r with d := Word.high value, e := Word.low value }
  | .hl => { r with h := Word.high value, l := Word.low value }
  | .sp => { r with sp := value }
  | .pc => { r with pc := value }

/-! ## Reading back what was written -/

@[simp] theorem byte_setByte (r : Registers) (reg : Reg8) (value : UInt8) :
    (r.setByte reg value).byte reg = value := by
  cases reg <;> rfl

/-- A pair other than `AF` holds any word. -/
theorem word_setWord (r : Registers) (reg : Reg16) (value : UInt16) (h : reg ≠ .af) :
    (r.setWord reg value).word reg = value := by
  cases reg <;> simp_all [setWord, word]

/-- `AF` holds the high byte and of the low byte the flags. -/
theorem word_setWord_af (r : Registers) (value : UInt16) :
    (r.setWord .af value).word .af
      = Word.ofBytes (Word.high value) (Flags.ofByte (Word.low value)).toByte := rfl

/-! ## The register file as text -/

/-- A register or pair with its name in front, as `BC=0013`. -/
def field (r : Registers) (reg : Reg16) : String := reg.name ++ "=" ++ Text.Hex.word (r.word reg)

/-- All six words on one line, separated by blanks. -/
def line (r : Registers) : String :=
  " ".intercalate (([.af, .bc, .de, .hl, .sp, .pc] : List Reg16).map r.field)

end Registers

end Sm83
