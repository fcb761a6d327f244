import Sm83.Flags

/-!
# Byte arithmetic and logic

The accumulator operations.  Each takes its operands, and the flags where some of them survive, and
returns the result with the complete new flag set.

Carries are stated on numbers, not on bit patterns: a carry out of the low nibble is a sum of low
nibbles above fifteen, a borrow is a difference that would be negative.  The two laws at the end are
what chains of these operations rest on: result and carry together are the exact sum, result and
borrow together the exact difference.
-/

namespace Sm83.Alu

/-- Sum of two bytes and an incoming carry. -/
def add (a b : UInt8) (carry : Bool) : UInt8 × Flags :=
  let result := a + b + carry.toUInt8
  (result,
    { z := result == 0
      n := false
      h := decide (15 < a.toNat % 16 + b.toNat % 16 + carry.toNat)
      c := decide (255 < a.toNat + b.toNat + carry.toNat) })

/-- Difference of two bytes less an incoming borrow. -/
def sub (a b : UInt8) (borrow : Bool) : UInt8 × Flags :=
  let result := a - b - borrow.toUInt8
  (result,
    { z := result == 0
      n := true
      h := decide (a.toNat % 16 < b.toNat % 16 + borrow.toNat)
      c := decide (a.toNat < b.toNat + borrow.toNat) })

/-- Bitwise conjunction; sets `h`. -/
def and (a b : UInt8) : UInt8 × Flags :=
  let result := a &&& b
  (result, { z := result == 0, n := false, h := true, c := false })

/-- Bitwise disjunction. -/
def or (a b : UInt8) : UInt8 × Flags :=
  let result := a ||| b
  (result, { z := result == 0, n := false, h := false, c := false })

/-- Bitwise exclusive disjunction. -/
def xor (a b : UInt8) : UInt8 × Flags :=
  let result := a ^^^ b
  (result, { z := result == 0, n := false, h := false, c := false })

/-- One more; `c` is left as it was. -/
def inc (value : UInt8) (flags : Flags) : UInt8 × Flags :=
  let result := value + 1
  (result, { z := result == 0, n := false, h := value.toNat % 16 == 15, c := flags.c })

/-- One less; `c` is left as it was. -/
def dec (value : UInt8) (flags : Flags) : UInt8 × Flags :=
  let result := value - 1
  (result, { z := result == 0, n := true, h := value.toNat % 16 == 0, c := flags.c })

/-! ## Result and carry are the exact sum -/

@[simp] theorem toNat_toUInt8 (carry : Bool) : carry.toUInt8.toNat = carry.toNat := by
  cases carry <;> rfl

/-- Result and carry out of an addition hold everything that went in. -/
theorem toNat_add_carry (a b : UInt8) (carry : Bool) :
    (add a b carry).1.toNat + 256 * (add a b carry).2.c.toNat
      = a.toNat + b.toNat + carry.toNat := by
  have ha := a.toNat_lt
  have hb := b.toNat_lt
  have hc : carry.toNat ≤ 1 := Bool.toNat_le carry
  simp only [add, UInt8.toNat_add, toNat_toUInt8]
  by_cases h : 255 < a.toNat + b.toNat + carry.toNat
  · simp only [h, decide_true, Bool.toNat_true]
    omega
  · simp only [h, decide_false, Bool.toNat_false]
    omega

/-- Result and borrow out of a subtraction: the borrow makes up what was missing. -/
theorem toNat_sub_borrow (a b : UInt8) (borrow : Bool) :
    (sub a b borrow).1.toNat + b.toNat + borrow.toNat
      = a.toNat + 256 * (sub a b borrow).2.c.toNat := by
  have ha := a.toNat_lt
  have hb := b.toNat_lt
  have hc : borrow.toNat ≤ 1 := Bool.toNat_le borrow
  simp only [sub, UInt8.toNat_sub, toNat_toUInt8]
  by_cases h : a.toNat < b.toNat + borrow.toNat
  · simp only [h, decide_true, Bool.toNat_true]
    omega
  · simp only [h, decide_false, Bool.toNat_false]
    omega

end Sm83.Alu
