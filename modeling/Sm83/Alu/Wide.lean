import Sm83.Flags
import Sm83.Word

/-!
# Word arithmetic

Two additions work on words.  `add16` adds two words and reports the carries out of bits 11 and 15.
`addSp` adds a signed displacement to the stack pointer but reports the carries of the unsigned
addition of its low byte, whatever the sign.

`toNat_add16_carry` says that sum and carry of `add16` are exact; `toNat_addSp` gives the word that
`addSp` ends at, with the displacement taken modulo `2 ^ 16`.
-/

namespace Sm83.Alu

/-- Sum of two words; `z` is left as it was. -/
def add16 (a b : UInt16) (flags : Flags) : UInt16 × Flags :=
  (a + b,
    { z := flags.z
      n := false
      h := decide (4095 < a.toNat % 4096 + b.toNat % 4096)
      c := decide (65535 < a.toNat + b.toNat) })

/-- The stack pointer moved by a signed displacement. -/
def addSp (sp : UInt16) (offset : UInt8) : UInt16 × Flags :=
  (sp + Word.signExtend offset,
    { z := false
      n := false
      h := decide (15 < sp.toNat % 16 + offset.toNat % 16)
      c := decide (255 < sp.toNat % 256 + offset.toNat) })

/-- Result and carry of a word addition hold everything that went in. -/
theorem toNat_add16_carry (a b : UInt16) (flags : Flags) :
    (add16 a b flags).1.toNat + 65536 * (add16 a b flags).2.c.toNat = a.toNat + b.toNat := by
  have ha := a.toNat_lt
  have hb := b.toNat_lt
  simp only [add16, UInt16.toNat_add]
  by_cases h : 65535 < a.toNat + b.toNat
  · simp only [h, decide_true, Bool.toNat_true]
    omega
  · simp only [h, decide_false, Bool.toNat_false]
    omega

/-- A displacement from `0x80` on stands for 256 less. -/
theorem toNat_addSp (sp : UInt16) (offset : UInt8) :
    (addSp sp offset).1.toNat
      = (sp.toNat + offset.toNat + if offset.toNat < 128 then 0 else 65280) % 65536 := by
  have ho := offset.toNat_lt
  simp only [addSp, Word.signExtend, UInt16.toNat_add]
  by_cases h : offset.toNat < 128
  · have h' : offset < 0x80 := UInt8.lt_iff_toNat_lt.2 h
    simp only [h, h', if_true, UInt8.toNat_toUInt16]
    omega
  · have h' : ¬ offset < 0x80 := fun hlt => h (UInt8.lt_iff_toNat_lt.1 hlt)
    simp only [h, h', if_false, UInt16.toNat_add, UInt8.toNat_toUInt16, UInt16.reduceToNat]
    omega

end Sm83.Alu
