import Sm83.Flags

/-!
# Rotates, shifts and single bits

Every rotate and shift moves a byte by one place and leaves the bit that falls out in `c`.  They
differ only in the bit that comes in at the other end: the one that fell out, the old carry, zero,
or a copy of the sign.  The rotates of the accumulator are the same moves with `z` always clear,
which the `checkZero` argument selects.

The moves are written as arithmetic, because that is what they are for: shifting left is doubling,
shifting right is halving, and the bit in `c` is the remainder.

* `toNat_shiftLeft_carry` — result and outgoing bit together are the doubled byte plus the bit that
  came in.
* `toNat_shiftRight_carry` — the doubled result and the outgoing bit together are the byte plus 256
  for the bit that came in.
-/

namespace Sm83.Alu

/-- The highest bit of a byte. -/
def topBit (value : UInt8) : Bool := decide (128 ≤ value.toNat)

/-- The lowest bit of a byte. -/
def lowBit (value : UInt8) : Bool := value.toNat % 2 == 1

/-- One place to the left with `bit` coming in below; the top bit falls out into `c`. -/
def shiftLeft (value : UInt8) (bit checkZero : Bool) : UInt8 × Flags :=
  let result := value * 2 + bit.toUInt8
  (result, { z := checkZero && result == 0, n := false, h := false, c := topBit value })

/-- One place to the right with `bit` coming in above; the lowest bit falls out into `c`. -/
def shiftRight (value : UInt8) (bit checkZero : Bool) : UInt8 × Flags :=
  let result := value / 2 + bit.toUInt8 * 128
  (result, { z := checkZero && result == 0, n := false, h := false, c := lowBit value })

/-- Rotate left: the bit that falls out comes back in. -/
def rlc (value : UInt8) (checkZero : Bool) : UInt8 × Flags :=
  shiftLeft value (topBit value) checkZero

/-- Rotate right: the bit that falls out comes back in. -/
def rrc (value : UInt8) (checkZero : Bool) : UInt8 × Flags :=
  shiftRight value (lowBit value) checkZero

/-- Rotate left through the carry. -/
def rl (value : UInt8) (carry checkZero : Bool) : UInt8 × Flags := shiftLeft value carry checkZero

/-- Rotate right through the carry. -/
def rr (value : UInt8) (carry checkZero : Bool) : UInt8 × Flags := shiftRight value carry checkZero

/-- Shift left: doubles the byte. -/
def sla (value : UInt8) : UInt8 × Flags := shiftLeft value false true

/-- Shift right keeping the sign: halves the byte read as a signed number. -/
def sra (value : UInt8) : UInt8 × Flags := shiftRight value (topBit value) true

/-- Shift right: halves the byte. -/
def srl (value : UInt8) : UInt8 × Flags := shiftRight value false true

/-- Exchange the two nibbles. -/
def swap (value : UInt8) : UInt8 × Flags :=
  let result := value * 16 + value / 16
  (result, { z := result == 0, n := false, h := false, c := false })

/-! ## No bit is lost -/

/-- Doubling: what falls out on the left is worth 256. -/
theorem toNat_shiftLeft_carry (value : UInt8) (bit checkZero : Bool) :
    (shiftLeft value bit checkZero).1.toNat + 256 * (shiftLeft value bit checkZero).2.c.toNat
      = 2 * value.toNat + bit.toNat := by
  have hv := value.toNat_lt
  have hb : bit.toUInt8.toNat = bit.toNat := by cases bit <;> rfl
  have hle : bit.toNat ≤ 1 := Bool.toNat_le bit
  simp only [shiftLeft, topBit, UInt8.toNat_add, UInt8.toNat_mul, hb, UInt8.reduceToNat]
  by_cases h : 128 ≤ value.toNat
  · simp only [h, decide_true, Bool.toNat_true]
    omega
  · simp only [h, decide_false, Bool.toNat_false]
    omega

/-- Halving: what falls out on the right is the remainder, and what comes in on the left is worth
256 before it is halved. -/
theorem toNat_shiftRight_carry (value : UInt8) (bit checkZero : Bool) :
    2 * (shiftRight value bit checkZero).1.toNat + (shiftRight value bit checkZero).2.c.toNat
      = value.toNat + 256 * bit.toNat := by
  have hv := value.toNat_lt
  have hb : bit.toUInt8.toNat = bit.toNat := by cases bit <;> rfl
  have hle : bit.toNat ≤ 1 := Bool.toNat_le bit
  simp only [shiftRight, lowBit, UInt8.toNat_add, UInt8.toNat_mul, UInt8.toNat_div, hb,
    UInt8.reduceToNat]
  rcases Nat.mod_two_eq_zero_or_one value.toNat with h | h
  · simp only [h, Nat.reduceBEq, Bool.toNat_false]
    omega
  · simp only [h, beq_self_eq_true, Bool.toNat_true]
    omega

/-! ## Single bits -/

/-- The byte with bit `n` set and no other. -/
def bitMask (n : Fin 8) : UInt8 := 1 <<< UInt8.ofNat n.val

/-- Test bit `n`: `z` is set where the bit is clear, and `c` is left as it was. -/
def bit (n : Fin 8) (value : UInt8) (flags : Flags) : Flags :=
  { z := value &&& bitMask n == 0, n := false, h := true, c := flags.c }

/-- Set bit `n`. -/
def set (n : Fin 8) (value : UInt8) : UInt8 := value ||| bitMask n

/-- Clear bit `n`. -/
def res (n : Fin 8) (value : UInt8) : UInt8 := value &&& ~~~(bitMask n)

end Sm83.Alu
