import Sm83.Alu.Wide
import Sm83.Proofs.Arithmetic.Binary

/-!
# Word additions from byte additions

`add16` and `addSp` work on words and test their operands for each carry that they report.  Nothing of
this is needed: an addition of words is two additions of bytes, and the carries are those that `add`
reports of bytes anyway.

* `sumOfWords_add16` — the low bytes are added first and the high bytes with their carry; `h` and `c`
  are those of the second addition.
* `movesBy_addSp` — here `h` and `c` are those of the first addition.  The displacement has no high
  byte, but a sign, and so the high byte takes the carry and loses one if the sign is set.

Each of the four carries stands for a place in a sum, and the sum of words and that of bytes are the
same number, so the carries are the same (`eq_and_carry_eq`).
-/

namespace Sm83.Alu

/-! ## Two words -/

/-- The low bytes of two words added. -/
def lowSum (a b : UInt16) : UInt8 × Flags := add (Word.low a) (Word.low b) false

/-- Their high bytes added, with the carry that the low ones leave. -/
def highSum (a b : UInt16) : UInt8 × Flags := add (Word.high a) (Word.high b) (lowSum a b).2.c

/-- How a sum of words is made up of sums of bytes. -/
structure SumOfWords (a b : UInt16) (flags : Flags) (sum : UInt16 × Flags) : Prop where
  word : sum.1 = Word.ofBytes (highSum a b).1 (lowSum a b).1
  carries : sum.2.h = (highSum a b).2.h ∧ sum.2.c = (highSum a b).2.c
  others : sum.2.z = flags.z ∧ sum.2.n = false

section Sum

variable (a b : UInt16) (flags : Flags)

/-- `h` of a word addition is the carry out of the low twelve bits. -/
theorem add16_half :
    (add16 a b flags).1.toNat % 4096 + 4096 * (add16 a b flags).2.h.toNat
      = a.toNat % 4096 + b.toNat % 4096 := by
  simp only [add16, UInt16.toNat_add]
  by_cases h : 4095 < a.toNat % 4096 + b.toNat % 4096
  · simp only [h, decide_true, Bool.toNat_true]
    omega
  · simp only [h, decide_false, Bool.toNat_false]
    omega

/-- Both sums and the last carry hold the words that went in. -/
theorem toNat_highSum_lowSum :
    (highSum a b).1.toNat * 256 + (lowSum a b).1.toNat + 65536 * (highSum a b).2.c.toNat
      = a.toNat + b.toNat := by
  have hlow := toNat_add_carry (Word.low a) (Word.low b) false
  have hhigh := toNat_add_carry (Word.high a) (Word.high b) (lowSum a b).2.c
  rw [Word.toNat_low, Word.toNat_low, Bool.toNat_false] at hlow
  rw [Word.toNat_high, Word.toNat_high] at hhigh
  rw [highSum]
  rw [lowSum] at hhigh ⊢
  omega

/-- And so it is with the low twelve bits and the carry between the nibbles of the high byte. -/
theorem highSum_half :
    (highSum a b).1.toNat % 16 * 256 + (lowSum a b).1.toNat + 4096 * (highSum a b).2.h.toNat
      = a.toNat % 4096 + b.toNat % 4096 := by
  have hlow := toNat_add_carry (Word.low a) (Word.low b) false
  have hhigh := add_nibble (Word.high a) (Word.high b) (lowSum a b).2.c
  rw [Word.toNat_low, Word.toNat_low, Bool.toNat_false] at hlow
  rw [Word.toNat_high, Word.toNat_high] at hhigh
  rw [highSum]
  rw [lowSum] at hhigh ⊢
  omega

theorem sumOfWords_add16 : SumOfWords a b flags (add16 a b flags) := by
  have hhigh := (highSum a b).1.toNat_lt
  have hlow := (lowSum a b).1.toNat_lt
  obtain ⟨hword, hcarry⟩ := eq_and_carry_eq (add16 a b flags).1.toNat_lt (by omega)
    ((toNat_add16_carry a b flags).trans (toNat_highSum_lowSum a b).symm)
  obtain ⟨-, hhalf⟩ := eq_and_carry_eq (Nat.mod_lt _ (by decide)) (by omega)
    ((add16_half a b flags).trans (highSum_half a b).symm)
  exact ⟨UInt16.toNat_inj.1 (hword.trans (Word.toNat_ofBytes _ _).symm), ⟨hhalf, hcarry⟩, rfl, rfl⟩

end Sum

/-! ## A word and a displacement -/

/-- How the addition of a displacement to a word follows from an addition to its low byte. -/
structure MovesBy (sp : UInt16) (offset : UInt8) (moved : UInt16 × Flags) : Prop where
  low : Word.low moved.1 = (add (Word.low sp) offset false).1
  /-- The high byte takes the carry.  A displacement from `0x80` on is below zero and takes one away. -/
  high : Word.high moved.1 = Word.high sp + (add (Word.low sp) offset false).2.c.toUInt8
    - if 0x80 ≤ offset then 1 else 0
  /-- Together that is the sum with the sign of the displacement, wherever it leads. -/
  word : (moved.1.toNat : Int) = (sp.toNat + offset.toInt8.toInt) % 65536
  carries : moved.2.h = (add (Word.low sp) offset false).2.h
    ∧ moved.2.c = (add (Word.low sp) offset false).2.c
  others : moved.2.z = false ∧ moved.2.n = false

/-- A byte with a sign. -/
theorem toInt_toInt8 (b : UInt8) :
    b.toInt8.toInt = if b.toNat < 128 then (b.toNat : Int) else b.toNat - 256 := by
  have h := BitVec.toInt_eq_toNat_cond b.toBitVec
  rw [UInt8.toNat_toBitVec] at h
  rw [← Int8.toInt_toBitVec, UInt8.toBitVec_toInt8, h]
  split <;> split <;> omega

/-- What the sign of a displacement takes away. -/
theorem toNat_ite_sign (offset : UInt8) :
    (if 0x80 ≤ offset then 1 else 0 : UInt8).toNat = if offset.toNat < 128 then 0 else 1 := by
  by_cases h : offset.toNat < 128
  · have h' : ¬ 0x80 ≤ offset := fun hle => Nat.not_le.2 h (UInt8.le_iff_toNat_le.1 hle)
    rw [if_neg h', if_pos h]
    rfl
  · have h' : 0x80 ≤ offset := UInt8.le_iff_toNat_le.2 (Nat.not_lt.1 h)
    rw [if_pos h', if_neg h]
    rfl

theorem movesBy_addSp (sp : UInt16) (offset : UInt8) : MovesBy sp offset (addSp sp offset) := by
  have hword := toNat_addSp sp offset
  have hlow := toNat_add_carry (Word.low sp) offset false
  rw [Word.toNat_low, Bool.toNat_false] at hlow
  have hsp := sp.toNat_lt
  have hoffset := offset.toNat_lt
  have hbyte := (add (Word.low sp) offset false).1.toNat_lt
  refine ⟨?_, ?_, ?_, ⟨?_, ?_⟩, rfl, rfl⟩
  · apply UInt8.toNat_inj.1
    rw [Word.toNat_low, hword]
    split <;> omega
  · apply UInt8.toNat_inj.1
    rw [Word.toNat_high, hword, UInt8.toNat_sub, UInt8.toNat_add, Word.toNat_high, toNat_toUInt8,
      toNat_ite_sign]
    split <;> omega
  · rw [toInt_toInt8, hword]
    split <;> omega
  · simp only [addSp, add, Word.toNat_low, Bool.toNat_false, Nat.add_zero]
    rw [Nat.mod_mod_of_dvd _ (by decide)]
  · simp only [addSp, add, Word.toNat_low, Bool.toNat_false, Nat.add_zero]

/-- Both word additions are made up of byte additions. -/
theorem wordAdditions_bytewise (a b : UInt16) (flags : Flags) (sp : UInt16) (offset : UInt8) :
    SumOfWords a b flags (add16 a b flags) ∧ MovesBy sp offset (addSp sp offset) :=
  ⟨sumOfWords_add16 a b flags, movesBy_addSp sp offset⟩

end Sm83.Alu
