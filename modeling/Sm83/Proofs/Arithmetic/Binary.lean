import Sm83.Alu.Arithmetic
import Sm83.Proofs.Arithmetic.Chain

/-!
# Addition and subtraction of numbers of any length

`add` and `sub` take a carry and leave one, and both are exact: `toNat_add_carry` and
`toNat_sub_borrow` say so of one byte.  Chained through the carry they add and subtract numbers of
any length, again exactly.

* `adds_addChain` and `subtracts_subChain` — sum and carry, difference and borrow, and what `h` and
  `z` say of each byte on the way.
* `subChain_addChain` — subtracting what was added gives back what there was, the borrow included.
-/

namespace Sm83.Alu

/-! ## The flags of one byte -/

/-- `h` is the carry out of the low nibble, the incoming carry counted. -/
theorem add_nibble (a b : UInt8) (carry : Bool) :
    (add a b carry).1.toNat % 16 + 16 * (add a b carry).2.h.toNat
      = a.toNat % 16 + b.toNat % 16 + carry.toNat := by
  have hc : carry.toNat ≤ 1 := Bool.toNat_le carry
  simp only [add, UInt8.toNat_add, toNat_toUInt8]
  by_cases h : 15 < a.toNat % 16 + b.toNat % 16 + carry.toNat
  · simp only [h, decide_true, Bool.toNat_true]
    omega
  · simp only [h, decide_false, Bool.toNat_false]
    omega

/-- `h` is the borrow of the low nibble, the incoming borrow counted. -/
theorem sub_nibble (a b : UInt8) (borrow : Bool) :
    (sub a b borrow).1.toNat % 16 + b.toNat % 16 + borrow.toNat
      = a.toNat % 16 + 16 * (sub a b borrow).2.h.toNat := by
  have hc : borrow.toNat ≤ 1 := Bool.toNat_le borrow
  have ha := a.toNat_lt
  have hb := b.toNat_lt
  simp only [sub, UInt8.toNat_sub, toNat_toUInt8]
  by_cases h : a.toNat % 16 < b.toNat % 16 + borrow.toNat
  · simp only [h, decide_true, Bool.toNat_true]
    omega
  · simp only [h, decide_false, Bool.toNat_false]
    omega

/-! ## Chains -/

/-- Addition of two numbers from the lowest byte up. -/
def addChain (xs ys : List UInt8) (carry : Bool) : Chained :=
  chain (Function.uncurry add) (xs.zip ys) carry

/-- Subtraction of two numbers from the lowest byte up. -/
def subChain (xs ys : List UInt8) (borrow : Bool) : Chained :=
  chain (Function.uncurry sub) (xs.zip ys) borrow

section Chains

variable {xs ys : List UInt8} (hlength : xs.length = ys.length)

include hlength

/-- Sum and carry together are all that went in. -/
theorem value_addChain (carry : Bool) :
    value (addChain xs ys carry).bytes + 256 ^ xs.length * (addChain xs ys carry).carry.toNat
      = value xs + value ys + carry.toNat :=
  number_chain_sum 256 UInt8.toNat (Function.uncurry add) hlength
    (fun pair _ carry => toNat_add_carry pair.1 pair.2 carry) carry

/-- Difference, subtrahend and incoming borrow together are the minuend and what the outgoing borrow
is worth. -/
theorem value_subChain (borrow : Bool) :
    value (subChain xs ys borrow).bytes + value ys + borrow.toNat
      = value xs + 256 ^ xs.length * (subChain xs ys borrow).carry.toNat :=
  number_chain_difference 256 UInt8.toNat (Function.uncurry sub) hlength
    (fun pair _ borrow => toNat_sub_borrow pair.1 pair.2 borrow) borrow

theorem length_addChain (carry : Bool) : (addChain xs ys carry).bytes.length = xs.length :=
  length_bytes_chain_zip (Function.uncurry add) hlength carry

theorem length_subChain (borrow : Bool) : (subChain xs ys borrow).bytes.length = xs.length :=
  length_bytes_chain_zip (Function.uncurry sub) hlength borrow

end Chains

/-! ## Sums and differences -/

/-- What an addition of two numbers of equal length leaves. -/
structure Adds (xs ys : List UInt8) (carry : Bool) (sum : Chained) : Prop where
  /-- The sum has as many bytes as either number. -/
  length : sum.bytes.length = xs.length
  /-- Sum and carry are all that went in. -/
  balance : value sum.bytes + 256 ^ xs.length * sum.carry.toNat
    = value xs + value ys + carry.toNat
  /-- `h` of each byte is the carry out of the low nibbles and the carry that came to them. -/
  nibbles : ∀ {i : Nat} {x y z : UInt8} {c : Bool} {f : Flags}, xs[i]? = some x → ys[i]? = some y →
    (sum.incoming carry)[i]? = some c → sum.results[i]? = some (z, f) →
      z.toNat % 16 + 16 * f.h.toNat = x.toNat % 16 + y.toNat % 16 + c.toNat
  /-- `z` tells whether the byte is zero. -/
  zeros : ∀ result ∈ sum.results, result.2.z = true ↔ result.1 = 0

/-- What a subtraction of two numbers of equal length leaves. -/
structure Subtracts (xs ys : List UInt8) (borrow : Bool) (difference : Chained) : Prop where
  /-- The difference has as many bytes as either number. -/
  length : difference.bytes.length = xs.length
  /-- The difference is exact up to the borrow. -/
  balance : (value difference.bytes : Int)
    = value xs - value ys - borrow.toNat + 256 ^ xs.length * difference.carry.toNat
  /-- There is a borrow where the number is too small. -/
  borrowed : difference.carry = true ↔ value xs < value ys + borrow.toNat
  /-- `h` of each byte is what its low nibble had to borrow. -/
  nibbles : ∀ {i : Nat} {x y z : UInt8} {c : Bool} {f : Flags}, xs[i]? = some x → ys[i]? = some y →
    (difference.incoming borrow)[i]? = some c → difference.results[i]? = some (z, f) →
      z.toNat % 16 + y.toNat % 16 + c.toNat = x.toNat % 16 + 16 * f.h.toNat
  /-- `z` tells whether the byte is zero. -/
  zeros : ∀ result ∈ difference.results, result.2.z = true ↔ result.1 = 0

section Sums

variable {xs ys : List UInt8} (hlength : xs.length = ys.length)

include hlength

theorem adds_addChain (carry : Bool) : Adds xs ys carry (addChain xs ys carry) where
  length := length_addChain hlength carry
  balance := value_addChain hlength carry
  nibbles {i x y z c f} hx hy hc hz := by
    obtain ⟨rfl, rfl⟩ := Prod.mk.inj (result_eq_operation _ hx hy hc hz)
    exact add_nibble x y c
  zeros := forall_mem_results_chain _ (fun _ _ _ => beq_iff_eq) carry

/-- A borrow is left exactly if the number is too small. -/
theorem carry_subChain_iff (borrow : Bool) :
    (subChain xs ys borrow).carry = true ↔ value xs < value ys + borrow.toNat := by
  have hvalue := value_subChain hlength borrow
  have hlt := value_lt (subChain xs ys borrow).bytes
  rw [length_subChain hlength] at hlt
  cases h : (subChain xs ys borrow).carry <;>
    simp only [h, Bool.toNat_true, Bool.toNat_false, Nat.mul_zero, Nat.mul_one] at hvalue <;>
    simp only [reduceCtorEq, true_iff, false_iff] <;> omega

theorem subtracts_subChain (borrow : Bool) :
    Subtracts xs ys borrow (subChain xs ys borrow) where
  length := length_subChain hlength borrow
  balance := by
    have h := congrArg (Nat.cast (R := Int)) (value_subChain hlength borrow)
    push_cast at h
    omega
  borrowed := carry_subChain_iff hlength borrow
  nibbles {i x y z c f} hx hy hc hz := by
    obtain ⟨rfl, rfl⟩ := Prod.mk.inj (result_eq_operation _ hx hy hc hz)
    exact sub_nibble x y c
  zeros := forall_mem_results_chain _ (fun _ _ _ => beq_iff_eq) borrow

/-- Subtracting what was added gives back what there was, and borrows what was carried. -/
theorem subChain_addChain (carry : Bool) :
    (subChain (addChain xs ys carry).bytes ys carry).bytes = xs
      ∧ (subChain (addChain xs ys carry).bytes ys carry).carry = (addChain xs ys carry).carry := by
  have hsum := length_addChain hlength carry
  have hback := length_subChain (hsum.trans hlength) carry
  have hadd := value_addChain hlength carry
  have hsub := value_subChain (hsum.trans hlength) carry
  rw [hsum] at hback hsub
  have hlt := value_lt (subChain (addChain xs ys carry).bytes ys carry).bytes
  rw [hback] at hlt
  have hsame : value (subChain (addChain xs ys carry).bytes ys carry).bytes
        + 256 ^ xs.length * (addChain xs ys carry).carry.toNat
      = value xs + 256 ^ xs.length
        * (subChain (addChain xs ys carry).bytes ys carry).carry.toNat := by
    omega
  obtain ⟨hvalue, hcarry⟩ := eq_and_carry_eq hlt (value_lt xs) hsame
  exact ⟨value_inj hback hvalue, hcarry.symm⟩

/-- Addition and subtraction of numbers of any length are exact, and the one undoes the other. -/
theorem addChain_and_subChain_exact (carry : Bool) :
    Adds xs ys carry (addChain xs ys carry) ∧ Subtracts xs ys carry (subChain xs ys carry)
      ∧ (subChain (addChain xs ys carry).bytes ys carry).bytes = xs
      ∧ (subChain (addChain xs ys carry).bytes ys carry).carry = (addChain xs ys carry).carry :=
  ⟨adds_addChain hlength carry, subtracts_subChain hlength carry, subChain_addChain hlength carry⟩

end Sums

/-- A carry that runs through both bytes, and the borrow that runs back. -/
theorem addChain_and_subChain_exact_through :
    (addChain [0xFF, 0xFF] [0x00, 0x00] true).bytes = [0x00, 0x00]
      ∧ (subChain [0x00, 0x00] [0x00, 0x00] true).bytes = [0xFF, 0xFF]
      ∧ Adds [0xFF, 0xFF] [0x00, 0x00] true (addChain [0xFF, 0xFF] [0x00, 0x00] true)
      ∧ Subtracts [0xFF, 0xFF] [0x00, 0x00] true (subChain [0xFF, 0xFF] [0x00, 0x00] true)
      ∧ (subChain (addChain [0xFF, 0xFF] [0x00, 0x00] true).bytes [0x00, 0x00] true).bytes
        = [0xFF, 0xFF]
      ∧ (subChain (addChain [0xFF, 0xFF] [0x00, 0x00] true).bytes [0x00, 0x00] true).carry
        = (addChain [0xFF, 0xFF] [0x00, 0x00] true).carry :=
  ⟨by decide, by decide, addChain_and_subChain_exact (by decide) true⟩

end Sm83.Alu
