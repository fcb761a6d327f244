import Sm83.Alu.Arithmetic
import Sm83.Alu.Decimal
import Sm83.Proofs.Arithmetic.Binary

/-!
# Decimal addition and subtraction of numbers of any length

A byte with a decimal digit in each nibble is a digit in base 100.  `add` or `sub` followed by `daa`
is an exact operation on such digits, with `c` as the carry between them, and so chains of the two
add and subtract decimal numbers of any length.

`daa` sees neither operand.  What it can tell from the result and the flags is which digits passed
nine or fell below zero: `lowCorrection_add` says so of the low digit of a sum and `adjustSum_eq` of
the high one, to which the low one may have carried.  A difference needs no such argument, because
its flags are the borrows of its digits.

* `toNat_addDecimal`, `toNat_subDecimal` — the adjusted byte is the binary result with six for the
  low digit and `0x60` for the high one, where they carried or borrowed.
* `addDecimal_exact`, `subDecimal_exact` — on digits in base 100 the operations are exact, and leave
  such digits.
* `addsDecimal_addDecimalChain`, `subtractsDecimal_subDecimalChain` — so are the chains.
-/

namespace Sm83.Alu

/-- Two decimal digits, one in each nibble. -/
def IsDecimal (byte : UInt8) : Prop := byte.toNat / 16 ≤ 9 ∧ byte.toNat % 16 ≤ 9

instance (byte : UInt8) : Decidable (IsDecimal byte) := inferInstanceAs (Decidable (_ ∧ _))

/-- The number two decimal digits stand for. -/
def decimal (byte : UInt8) : Nat := 10 * (byte.toNat / 16) + byte.toNat % 16

/-- The number a list of bytes stands for, two decimal digits in each, the lowest byte first. -/
abbrev decimalValue (bytes : List UInt8) : Nat := number 100 decimal bytes

/-- Addition followed by decimal adjustment. -/
def addDecimal (a b : UInt8) (carry : Bool) : UInt8 × Flags :=
  let (result, flags) := add a b carry
  daa result flags

/-- Subtraction followed by decimal adjustment. -/
def subDecimal (a b : UInt8) (borrow : Bool) : UInt8 × Flags :=
  let (result, flags) := sub a b borrow
  daa result flags

/-! ## Sums of two digits -/

/-- The high digit is corrected exactly if carry and byte, the low digit corrected, pass `0x9F`; the
correction always carries. -/
theorem adjustSum_eq {a : UInt8} {flags : Flags} {total : Nat}
    (htotal : a.toNat + 256 * flags.c.toNat + lowCorrection a flags = total) :
    (adjustSum a flags).2 = decide (0x9F < total)
      ∧ (adjustSum a flags).1 + 256 * flags.c.toNat
        = total + 0x60 * (decide (0x9F < total)).toNat := by
  rw [adjustSum]
  cases hc : flags.c with
  | true =>
    rw [hc, Bool.toNat_true] at htotal
    have hpast : 0x9F < total := by omega
    simp only [hpast, Bool.true_or, if_true, decide_true, Bool.toNat_true, true_and]
    omega
  | false =>
    rw [hc, Bool.toNat_false, Nat.mul_zero, Nat.add_zero] at htotal
    simp only [htotal, Bool.false_or, decide_eq_true_eq, Bool.toNat_false]
    by_cases hpast : 0x9F < total
    · have hcarry : 256 ≤ total + 0x60 := by omega
      simp only [hpast, hcarry, if_true, decide_true, Bool.toNat_true, true_and]
    · have hcarry : ¬ 256 ≤ total := by omega
      simp only [hpast, hcarry, if_false, decide_false, Bool.toNat_false, true_and]

/-- Whether the low digits of a sum, and the carry that comes to them, pass nine. -/
def lowCarry (a b : UInt8) (carry : Bool) : Bool :=
  decide (9 < a.toNat % 16 + b.toNat % 16 + carry.toNat)

section Sums

variable {a b : UInt8} (ha : IsDecimal a) (hb : IsDecimal b) (carry : Bool)

include ha hb

/-- The low digit is corrected if the sum passed nine, whether or not it passed fifteen too. -/
theorem lowCorrection_add :
    lowCorrection (add a b carry).1 (add a b carry).2
      = 6 * (lowCarry a b carry).toNat := by
  obtain ⟨-, ha⟩ := ha
  obtain ⟨-, hb⟩ := hb
  have hc : carry.toNat ≤ 1 := Bool.toNat_le carry
  have hsum := toNat_add_carry a b carry
  have hpast : ((add a b carry).2.h || decide (9 < (add a b carry).1.toNat % 16))
      = lowCarry a b carry := by
    rw [show (add a b carry).2.h = decide (15 < a.toNat % 16 + b.toNat % 16 + carry.toNat) from rfl,
      lowCarry, ← Bool.decide_or]
    exact decide_eq_decide.2 (by omega)
  rw [lowCorrection, hpast]
  cases lowCarry a b carry <;> rfl

/-- The adjusted sum: six for the low digit, and the high digit carries if it passed nine. -/
theorem toNat_addDecimal {total : Nat}
    (htotal : a.toNat + b.toNat + carry.toNat + 6 * (lowCarry a b carry).toNat = total) :
    (addDecimal a b carry).2.c = decide (0x9F < total)
      ∧ (addDecimal a b carry).1.toNat + 0xA0 * (addDecimal a b carry).2.c.toNat = total := by
  have hbound : total ≤ 0x139 := by
    have hcarry : carry.toNat ≤ 1 := Bool.toNat_le carry
    have hlow := Bool.toNat_le (lowCarry a b carry)
    obtain ⟨ha, ha'⟩ := ha
    obtain ⟨hb, hb'⟩ := hb
    omega
  rw [← toNat_add_carry, ← lowCorrection_add ha hb] at htotal
  obtain ⟨hcarry, hvalue⟩ := adjustSum_eq htotal
  have hc : (addDecimal a b carry).2.c = decide (0x9F < total) := hcarry
  have hz : (addDecimal a b carry).1.toNat
      = (adjustSum (add a b carry).1 (add a b carry).2).1 % 256 := UInt8.toNat_ofNat'
  have hle := Bool.toNat_le (add a b carry).2.c
  refine ⟨hc, ?_⟩
  rw [hc, hz]
  by_cases hpast : 0x9F < total
  · simp only [hpast, decide_true, Bool.toNat_true] at hvalue ⊢
    omega
  · simp only [hpast, decide_false, Bool.toNat_false] at hvalue ⊢
    omega

/-- Addition with adjustment adds digits in base 100. -/
theorem addDecimal_exact :
    decimal (addDecimal a b carry).1 + 100 * (addDecimal a b carry).2.c.toNat
        = decimal a + decimal b + carry.toNat
      ∧ IsDecimal (addDecimal a b carry).1 := by
  have hcarry : carry.toNat ≤ 1 := Bool.toNat_le carry
  obtain ⟨hc, hz⟩ := toNat_addDecimal ha hb carry rfl
  obtain ⟨ha, ha'⟩ := ha
  obtain ⟨hb, hb'⟩ := hb
  simp only [decimal, IsDecimal]
  -- The four cases are which of the two digits carry.
  cases hlow : lowCarry a b carry <;> cases hhigh : (addDecimal a b carry).2.c <;>
    simp only [hlow, hhigh, Bool.toNat_true, Bool.toNat_false, Bool.true_eq, Bool.false_eq,
      decide_eq_true_eq, decide_eq_false_iff_not] at hc hz ⊢ <;>
    simp only [lowCarry, decide_eq_true_eq, decide_eq_false_iff_not] at hlow <;>
    omega

end Sums

/-! ## Differences of two digits -/

section Differences

variable {a b : UInt8} (ha : IsDecimal a) (hb : IsDecimal b) (borrow : Bool)

include ha hb

/-- The adjusted difference: six less for the low digit and `0x60` less for the high one where they
borrowed.  The borrow stays. -/
theorem toNat_subDecimal :
    (subDecimal a b borrow).2.c = (sub a b borrow).2.c
      ∧ (subDecimal a b borrow).1.toNat + b.toNat + borrow.toNat
          + 6 * (sub a b borrow).2.h.toNat
        = a.toNat + 0xA0 * (sub a b borrow).2.c.toNat := by
  have hborrow : borrow.toNat ≤ 1 := Bool.toNat_le borrow
  have hlt := (sub a b borrow).1.toNat_lt
  have hvalue := toNat_sub_borrow a b borrow
  have hnibble := sub_nibble a b borrow
  have hz : (subDecimal a b borrow).1.toNat
      = (adjustDifference (sub a b borrow).1 (sub a b borrow).2).1 % 256 := UInt8.toNat_ofNat'
  obtain ⟨ha, ha'⟩ := ha
  obtain ⟨hb, hb'⟩ := hb
  refine ⟨rfl, ?_⟩
  rw [hz, adjustDifference]
  cases hlow : (sub a b borrow).2.h <;> cases hhigh : (sub a b borrow).2.c <;>
    simp only [hlow, hhigh, Bool.toNat_true, Bool.toNat_false, if_true, Bool.false_eq_true,
      if_false] at hvalue hnibble ⊢ <;>
    omega

/-- Subtraction with adjustment subtracts digits in base 100. -/
theorem subDecimal_exact :
    decimal (subDecimal a b borrow).1 + decimal b + borrow.toNat
        = decimal a + 100 * (subDecimal a b borrow).2.c.toNat
      ∧ IsDecimal (subDecimal a b borrow).1 := by
  have hborrow : borrow.toNat ≤ 1 := Bool.toNat_le borrow
  obtain ⟨hc, hz⟩ := toNat_subDecimal ha hb borrow
  have hlt := (sub a b borrow).1.toNat_lt
  have hvalue := toNat_sub_borrow a b borrow
  have hnibble := sub_nibble a b borrow
  obtain ⟨ha, ha'⟩ := ha
  obtain ⟨hb, hb'⟩ := hb
  simp only [decimal, IsDecimal]
  rw [hc]
  -- The four cases are which of the two digits borrow.
  cases hlow : (sub a b borrow).2.h <;> cases hhigh : (sub a b borrow).2.c <;>
    simp only [hlow, hhigh, Bool.toNat_true, Bool.toNat_false] at hz hvalue hnibble ⊢ <;>
    omega

end Differences

/-! ## Chains -/

/-- Addition of two decimal numbers from the lowest byte up, each byte adjusted before the next. -/
def addDecimalChain (xs ys : List UInt8) (carry : Bool) : Chained :=
  chain (Function.uncurry addDecimal) (xs.zip ys) carry

/-- Subtraction of two decimal numbers from the lowest byte up, each byte adjusted before the
next. -/
def subDecimalChain (xs ys : List UInt8) (borrow : Bool) : Chained :=
  chain (Function.uncurry subDecimal) (xs.zip ys) borrow

/-- What an adjustment says of the byte it leaves: no half carry, the direction it was made in, and
whether the byte is zero. -/
def Adjusted (subtracted : Bool) (result : UInt8 × Flags) : Prop :=
  result.2.h = false ∧ result.2.n = subtracted ∧ (result.2.z = true ↔ result.1 = 0)

theorem adjusted_daa (a : UInt8) (flags : Flags) : Adjusted flags.n (daa a flags) :=
  ⟨rfl, rfl, beq_iff_eq⟩

/-- What an addition of two decimal numbers of equal length leaves. -/
structure AddsDecimal (xs ys : List UInt8) (carry : Bool) (sum : Chained) : Prop where
  /-- The sum has as many bytes as either number. -/
  length : sum.bytes.length = xs.length
  /-- The sum is a decimal number. -/
  valid : ∀ byte ∈ sum.bytes, IsDecimal byte
  /-- Sum and carry are all that went in. -/
  balance : decimalValue sum.bytes + 100 ^ xs.length * sum.carry.toNat
    = decimalValue xs + decimalValue ys + carry.toNat
  /-- The flags tell of each byte that it was adjusted after an addition. -/
  flags : ∀ result ∈ sum.results, Adjusted false result

/-- What a subtraction of two decimal numbers of equal length leaves. -/
structure SubtractsDecimal (xs ys : List UInt8) (borrow : Bool) (difference : Chained) : Prop where
  /-- The difference has as many bytes as either number. -/
  length : difference.bytes.length = xs.length
  /-- The difference is a decimal number. -/
  valid : ∀ byte ∈ difference.bytes, IsDecimal byte
  /-- The difference is exact up to the borrow. -/
  balance : (decimalValue difference.bytes : Int)
    = decimalValue xs - decimalValue ys - borrow.toNat
      + 100 ^ xs.length * difference.carry.toNat
  /-- The flags tell of each byte that it was adjusted after a subtraction. -/
  flags : ∀ result ∈ difference.results, Adjusted true result

section Chains

variable {xs ys : List UInt8} (hlength : xs.length = ys.length)
  (hxs : ∀ x ∈ xs, IsDecimal x) (hys : ∀ y ∈ ys, IsDecimal y)

include hxs hys

theorem isDecimal_of_mem_zip {pair : UInt8 × UInt8} (hpair : pair ∈ xs.zip ys) :
    IsDecimal pair.1 ∧ IsDecimal pair.2 :=
  (List.of_mem_zip hpair).imp (hxs _) (hys _)

include hlength

/-- Sum and carry together are all that went in. -/
theorem decimalValue_addDecimalChain (carry : Bool) :
    decimalValue (addDecimalChain xs ys carry).bytes
        + 100 ^ xs.length * (addDecimalChain xs ys carry).carry.toNat
      = decimalValue xs + decimalValue ys + carry.toNat :=
  number_chain_sum 100 decimal (Function.uncurry addDecimal) hlength
    (fun _ hpair carry =>
      have hdigits := isDecimal_of_mem_zip hxs hys hpair
      (addDecimal_exact hdigits.1 hdigits.2 carry).1) carry

/-- Difference, subtrahend and incoming borrow together are the minuend and what the outgoing borrow
is worth. -/
theorem decimalValue_subDecimalChain (borrow : Bool) :
    decimalValue (subDecimalChain xs ys borrow).bytes + decimalValue ys + borrow.toNat
      = decimalValue xs + 100 ^ xs.length * (subDecimalChain xs ys borrow).carry.toNat :=
  number_chain_difference 100 decimal (Function.uncurry subDecimal) hlength
    (fun _ hpair borrow =>
      have hdigits := isDecimal_of_mem_zip hxs hys hpair
      (subDecimal_exact hdigits.1 hdigits.2 borrow).1) borrow

theorem addsDecimal_addDecimalChain (carry : Bool) :
    AddsDecimal xs ys carry (addDecimalChain xs ys carry) where
  length := length_bytes_chain_zip _ hlength carry
  valid := List.forall_mem_map.2 <| forall_mem_results_chain (Function.uncurry addDecimal)
    (fun _ hpair carry =>
      have hdigits := isDecimal_of_mem_zip hxs hys hpair
      (addDecimal_exact hdigits.1 hdigits.2 carry).2) carry
  balance := decimalValue_addDecimalChain hlength hxs hys carry
  flags := forall_mem_results_chain (Function.uncurry addDecimal)
    (fun pair _ carry => adjusted_daa (add pair.1 pair.2 carry).1 _) carry

theorem subtractsDecimal_subDecimalChain (borrow : Bool) :
    SubtractsDecimal xs ys borrow (subDecimalChain xs ys borrow) where
  length := length_bytes_chain_zip _ hlength borrow
  valid := List.forall_mem_map.2 <| forall_mem_results_chain (Function.uncurry subDecimal)
    (fun _ hpair borrow =>
      have hdigits := isDecimal_of_mem_zip hxs hys hpair
      (subDecimal_exact hdigits.1 hdigits.2 borrow).2) borrow
  balance := by
    have h := congrArg (Nat.cast (R := Int)) (decimalValue_subDecimalChain hlength hxs hys borrow)
    push_cast at h
    omega
  flags := forall_mem_results_chain (Function.uncurry subDecimal)
    (fun pair _ borrow => adjusted_daa (sub pair.1 pair.2 borrow).1 _) borrow

/-- Addition and subtraction, each byte adjusted, are exact on decimal numbers of any length. -/
theorem decimalChains_exact (carry : Bool) :
    AddsDecimal xs ys carry (addDecimalChain xs ys carry)
      ∧ SubtractsDecimal xs ys carry (subDecimalChain xs ys carry) :=
  ⟨addsDecimal_addDecimalChain hlength hxs hys carry,
    subtractsDecimal_subDecimalChain hlength hxs hys carry⟩

end Chains

/-- 9958 and 42 are 10000, of which four digits hold nothing but zeros. -/
theorem decimalChains_exact_nines :
    (addDecimalChain [0x58, 0x99] [0x42, 0x00] false).bytes = [0x00, 0x00]
      ∧ (addDecimalChain [0x58, 0x99] [0x42, 0x00] false).carry = true
      ∧ AddsDecimal [0x58, 0x99] [0x42, 0x00] false
          (addDecimalChain [0x58, 0x99] [0x42, 0x00] false)
      ∧ SubtractsDecimal [0x58, 0x99] [0x42, 0x00] false
          (subDecimalChain [0x58, 0x99] [0x42, 0x00] false) :=
  ⟨by decide, by decide,
    decimalChains_exact (by decide) (by simp [IsDecimal]) (by simp [IsDecimal]) false⟩

end Sm83.Alu
