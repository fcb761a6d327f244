import Sm83.Alu.Shift
import Sm83.Proofs.Arithmetic.Chain

/-!
# Shifts and rotates of numbers of any length

A number wider than a byte is shifted by one operation for each byte, in the order in which the bits
wander: to the left from the lowest byte up, to the right from the highest byte down.  The first
operation decides what comes in at the end, `rl` and `rr` hand on what falls out of their neighbour.

* `value_rotateUp`, `value_rotateDown` — a pass of `rl` doubles the number and takes the carry in
  below, a pass of `rr` halves it and takes the carry in above.  Nothing is lost in either, so each
  undoes the other: `rotateDown_rotateUp`, `rotateUp_rotateDown`.
* `value_shiftUp`, `value_shiftDown_srl`, `signedValue_shiftDown_sra` — the same passes with `sla`,
  `srl` or `sra` in place of their first operation, which is `rl` or `rr` with a fixed bit.
-/

namespace Sm83.Alu

/-! ## Passes of rotates -/

/-- `rl` on each byte from the lowest up. -/
def rotateUp (checkZero : Bool) (bytes : List UInt8) (carry : Bool) : Chained :=
  chain (fun byte carry => rl byte carry checkZero) bytes carry

/-- `rr` on each byte from the highest down. -/
def rotateDown (checkZero : Bool) (bytes : List UInt8) (carry : Bool) : Chained :=
  (chain (fun byte carry => rr byte carry checkZero) bytes.reverse carry).reversed

section Rotates

variable (checkZero : Bool) (bytes : List UInt8) (carry : Bool)

@[simp] theorem length_bytes_rotateUp :
    (rotateUp checkZero bytes carry).bytes.length = bytes.length :=
  length_bytes_chain _ bytes carry

@[simp] theorem length_bytes_rotateDown :
    (rotateDown checkZero bytes carry).bytes.length = bytes.length := by
  rw [rotateDown, Chained.bytes_reversed, List.length_reverse, length_bytes_chain,
    List.length_reverse]

/-- Doubling: the carry comes in below and goes out above. -/
theorem value_rotateUp :
    value (rotateUp checkZero bytes carry).bytes
        + 256 ^ bytes.length * (rotateUp checkZero bytes carry).carry.toNat
      = 2 * value bytes + carry.toNat := by
  have hlength := (length_bytes_chain (fun byte carry => rl byte carry checkZero) bytes carry).symm
  have h := number_chain 256 (fun byte carry => rl byte carry checkZero) (fun _ z => z.toNat)
    (fun byte _ => 2 * byte.toNat)
    (fun byte (_ : byte ∈ bytes) carry => toNat_shiftLeft_carry byte carry checkZero) carry
  rw [number_zip_snd 256 UInt8.toNat hlength,
    number_zip_fst 256 (fun byte => 2 * UInt8.toNat byte) hlength, number_mul] at h
  exact h

/-- Halving: the carry comes in above and goes out below. -/
theorem value_rotateDown :
    2 * value (rotateDown checkZero bytes carry).bytes
        + (rotateDown checkZero bytes carry).carry.toNat
      = value bytes + 256 ^ bytes.length * carry.toNat := by
  have h := number_chain_down 256 (fun byte carry => rr byte carry checkZero)
    (fun z => 2 * z.toNat) UInt8.toNat
    (fun byte carry => toNat_shiftRight_carry byte carry checkZero) bytes.reverse carry
  rw [number_mul, List.reverse_reverse, List.length_reverse] at h
  rw [rotateDown, Chained.bytes_reversed]
  exact h

/-- A pass up is undone by a pass down. -/
theorem rotateDown_rotateUp (checkZero' : Bool) :
    (rotateDown checkZero' (rotateUp checkZero bytes carry).bytes
        (rotateUp checkZero bytes carry).carry).bytes = bytes
      ∧ (rotateDown checkZero' (rotateUp checkZero bytes carry).bytes
        (rotateUp checkZero bytes carry).carry).carry = carry := by
  have hup := value_rotateUp checkZero bytes carry
  have hlength := length_bytes_rotateUp checkZero bytes carry
  generalize rotateUp checkZero bytes carry = up at hup hlength ⊢
  have hdown := value_rotateDown checkZero' up.bytes up.carry
  rw [hlength, hup] at hdown
  have hback := length_bytes_rotateDown checkZero' up.bytes up.carry
  obtain ⟨hvalue, hcarry⟩ := eq_and_bit_eq hdown
  exact ⟨value_inj (hback.trans hlength) hvalue, hcarry⟩

/-- A pass down is undone by a pass up. -/
theorem rotateUp_rotateDown (checkZero' : Bool) :
    (rotateUp checkZero' (rotateDown checkZero bytes carry).bytes
        (rotateDown checkZero bytes carry).carry).bytes = bytes
      ∧ (rotateUp checkZero' (rotateDown checkZero bytes carry).bytes
        (rotateDown checkZero bytes carry).carry).carry = carry := by
  have hdown := value_rotateDown checkZero bytes carry
  have hlength := length_bytes_rotateDown checkZero bytes carry
  generalize rotateDown checkZero bytes carry = down at hdown hlength ⊢
  have hup := value_rotateUp checkZero' down.bytes down.carry
  have hback := length_bytes_rotateUp checkZero' down.bytes down.carry
  rw [hlength] at hup hback
  have hlt := value_lt (rotateUp checkZero' down.bytes down.carry).bytes
  rw [hback] at hlt
  obtain ⟨hvalue, hcarry⟩ := eq_and_carry_eq hlt (value_lt bytes) (hup.trans hdown)
  exact ⟨value_inj hback hvalue, hcarry⟩

end Rotates

/-! ## Passes of shifts -/

/-- One operation on the first byte, which takes no carry, and another on each byte after it. -/
def chainAfter (first : UInt8 → UInt8 × Flags) (operation : UInt8 → Bool → UInt8 × Flags) :
    List UInt8 → Chained
  | [] => ⟨[], false⟩
  | byte :: bytes =>
    let rest := chain operation bytes (first byte).2.c
    ⟨first byte :: rest.results, rest.carry⟩

/-- `sla` on the lowest byte and `rl` on each byte above it. -/
def shiftUp (checkZero : Bool) (bytes : List UInt8) : Chained :=
  chainAfter sla (fun byte carry => rl byte carry checkZero) bytes

/-- `srl` or `sra`, as `first` says, on the highest byte and `rr` on each byte below it. -/
def shiftDown (first : UInt8 → UInt8 × Flags) (checkZero : Bool) (bytes : List UInt8) : Chained :=
  (chainAfter first (fun byte carry => rr byte carry checkZero) bytes.reverse).reversed

/-- A list of bytes as a two's complement number: from half of all numbers on, they stand for
numbers below zero. -/
def signedValue (bytes : List UInt8) : Int :=
  if 2 * value bytes < 256 ^ bytes.length then value bytes
  else value bytes - (256 ^ bytes.length : Nat)

/-- The highest bit of the highest byte is the sign. -/
theorem toNat_topBit (bytes : List UInt8) (top : UInt8) :
    (topBit top).toNat
      = if 2 * value (bytes ++ [top]) < 256 ^ (bytes ++ [top]).length then 0 else 1 := by
  have hlow := value_lt bytes
  have hvalue : value (bytes ++ [top]) = value bytes + 256 ^ bytes.length * top.toNat :=
    number_concat 256 UInt8.toNat bytes top
  rw [topBit, hvalue, List.length_append, List.length_singleton, Nat.pow_succ]
  by_cases htop : 128 ≤ top.toNat
  · have hhigh := Nat.mul_le_mul_left (256 ^ bytes.length) htop
    rw [decide_eq_true htop, if_neg (by omega), Bool.toNat_true]
  · have hhigh := Nat.mul_le_mul_left (256 ^ bytes.length) (show top.toNat ≤ 127 by omega)
    rw [decide_eq_false htop, if_pos (by omega), Bool.toNat_false]

section Shifts

variable (checkZero : Bool)

/-- A first operation that does to its byte what the others do with a certain carry starts a chain
with that carry. -/
theorem chainAfter_cons (first : UInt8 → UInt8 × Flags)
    (operation : UInt8 → Bool → UInt8 × Flags) (byte : UInt8) (carry : Bool)
    (hbyte : (first byte).1 = (operation byte carry).1)
    (hcarry : (first byte).2.c = (operation byte carry).2.c) (bytes : List UInt8) :
    (chainAfter first operation (byte :: bytes)).bytes
        = (chain operation (byte :: bytes) carry).bytes
      ∧ (chainAfter first operation (byte :: bytes)).carry
        = (chain operation (byte :: bytes) carry).carry := by
  rw [bytes_chain_cons, carry_chain_cons, ← hbyte, ← hcarry]
  exact ⟨rfl, rfl⟩

@[simp] theorem length_bytes_chainAfter (first : UInt8 → UInt8 × Flags)
    (operation : UInt8 → Bool → UInt8 × Flags) (bytes : List UInt8) :
    (chainAfter first operation bytes).bytes.length = bytes.length := by
  cases bytes with
  | nil => rfl
  | cons byte bytes => exact congrArg Nat.succ (length_bytes_chain operation bytes _)

/-- `srl` and `sra` are `rr` with a bit of their own coming in. -/
theorem shiftDown_concat (first : UInt8 → UInt8 × Flags) (top : UInt8) (carry : Bool)
    (hbyte : (first top).1 = (rr top carry checkZero).1)
    (hcarry : (first top).2.c = (rr top carry checkZero).2.c) (bytes : List UInt8) :
    (shiftDown first checkZero (bytes ++ [top])).bytes
        = (rotateDown checkZero (bytes ++ [top]) carry).bytes
      ∧ (shiftDown first checkZero (bytes ++ [top])).carry
        = (rotateDown checkZero (bytes ++ [top]) carry).carry := by
  have h := chainAfter_cons first (fun byte carry => rr byte carry checkZero) top carry hbyte hcarry
    bytes.reverse
  rw [shiftDown, rotateDown, List.reverse_append, Chained.bytes_reversed, Chained.bytes_reversed]
  exact ⟨congrArg List.reverse h.1, h.2⟩

@[simp] theorem length_bytes_shiftUp (bytes : List UInt8) :
    (shiftUp checkZero bytes).bytes.length = bytes.length :=
  length_bytes_chainAfter _ _ bytes

@[simp] theorem length_bytes_shiftDown (first : UInt8 → UInt8 × Flags) (bytes : List UInt8) :
    (shiftDown first checkZero bytes).bytes.length = bytes.length := by
  rw [shiftDown, Chained.bytes_reversed, List.length_reverse, length_bytes_chainAfter,
    List.length_reverse]

/-- Doubling. -/
theorem value_shiftUp (bytes : List UInt8) :
    value (shiftUp checkZero bytes).bytes
        + 256 ^ bytes.length * (shiftUp checkZero bytes).carry.toNat
      = 2 * value bytes := by
  cases bytes with
  | nil => rfl
  | cons byte bytes =>
    have h := chainAfter_cons sla (fun byte carry => rl byte carry checkZero) byte false rfl rfl
      bytes
    rw [shiftUp, h.1, h.2]
    exact value_rotateUp checkZero (byte :: bytes) false

/-- Halving. -/
theorem value_shiftDown_srl (bytes : List UInt8) :
    value (shiftDown srl checkZero bytes).bytes = value bytes / 2
      ∧ (shiftDown srl checkZero bytes).carry.toNat = value bytes % 2 := by
  obtain rfl | ⟨rest, top, rfl⟩ := bytes.eq_nil_or_concat
  · exact ⟨rfl, rfl⟩
  · obtain ⟨hbytes, hcarry⟩ :=
      shiftDown_concat checkZero srl top false rfl rfl rest
    have h := value_rotateDown checkZero (rest ++ [top]) false
    have hle := Bool.toNat_le (rotateDown checkZero (rest ++ [top]) false).carry
    rw [List.concat_eq_append, hbytes, hcarry]
    rw [Bool.toNat_false, Nat.mul_zero, Nat.add_zero] at h
    omega

/-- Halving of a number with a sign, rounded down. -/
theorem signedValue_shiftDown_sra (bytes : List UInt8) :
    signedValue (shiftDown sra checkZero bytes).bytes = signedValue bytes / 2
      ∧ (shiftDown sra checkZero bytes).carry.toNat = value bytes % 2 := by
  obtain rfl | ⟨rest, top, rfl⟩ := bytes.eq_nil_or_concat
  · exact ⟨rfl, rfl⟩
  · obtain ⟨hbytes, hcarry⟩ :=
      shiftDown_concat checkZero sra top (topBit top) rfl rfl rest
    have h := value_rotateDown checkZero (rest ++ [top]) (topBit top)
    have hle := Bool.toNat_le (rotateDown checkZero (rest ++ [top]) (topBit top)).carry
    have hplace : 256 ^ (rest ++ [top]).length = 256 ^ rest.length * 256 := by
      rw [List.length_append, List.length_singleton, Nat.pow_succ]
    have hpositive : 0 < 256 ^ rest.length := Nat.pow_pos (by decide)
    rw [toNat_topBit rest top] at h
    rw [List.concat_eq_append, hbytes, hcarry, signedValue, signedValue, length_bytes_rotateDown]
    -- The sign stays: half of a number in the upper half, with the sign coming in, is there too.
    by_cases hsign : 2 * value (rest ++ [top]) < 256 ^ (rest ++ [top]).length
    · rw [if_pos hsign] at h ⊢
      rw [if_pos (by omega)]
      omega
    · rw [if_neg hsign] at h ⊢
      rw [if_neg (by omega)]
      omega

end Shifts

/-! ## What the passes do -/

/-- What the passes of shifts do to a number. -/
structure Shifts (checkZero : Bool) (bytes : List UInt8) : Prop where
  /-- No pass adds or drops a byte. -/
  lengths : (shiftUp checkZero bytes).bytes.length = bytes.length
    ∧ ∀ first, (shiftDown first checkZero bytes).bytes.length = bytes.length
  /-- `sla` and `rl` double it, the carry counted as the place above. -/
  doubles : value (shiftUp checkZero bytes).bytes
      + 256 ^ bytes.length * (shiftUp checkZero bytes).carry.toNat
    = 2 * value bytes
  /-- `srl` and `rr` halve it, and the carry is the remainder. -/
  halves : value (shiftDown srl checkZero bytes).bytes = value bytes / 2
    ∧ (shiftDown srl checkZero bytes).carry.toNat = value bytes % 2
  /-- `sra` and `rr` halve it as a number with a sign, rounded down, with the same carry. -/
  halvesSigned : signedValue (shiftDown sra checkZero bytes).bytes = signedValue bytes / 2
    ∧ (shiftDown sra checkZero bytes).carry.toNat = value bytes % 2

/-- A pass of `rl` and a pass of `rr` that takes the carry the first one left give back number and
carry. -/
structure Undoes (checkZero checkZero' : Bool) (bytes : List UInt8) (carry : Bool) : Prop where
  /-- Up first. -/
  down_up : (rotateDown checkZero' (rotateUp checkZero bytes carry).bytes
        (rotateUp checkZero bytes carry).carry).bytes = bytes
      ∧ (rotateDown checkZero' (rotateUp checkZero bytes carry).bytes
        (rotateUp checkZero bytes carry).carry).carry = carry
  /-- Down first. -/
  up_down : (rotateUp checkZero' (rotateDown checkZero bytes carry).bytes
        (rotateDown checkZero bytes carry).carry).bytes = bytes
      ∧ (rotateUp checkZero' (rotateDown checkZero bytes carry).bytes
        (rotateDown checkZero bytes carry).carry).carry = carry

/-- Shifts of numbers of any length double and halve, and rotates through the carry lose nothing.
Which form of `rl` and `rr` is taken makes no difference. -/
theorem shiftPasses_exact (checkZero checkZero' : Bool) (bytes : List UInt8) :
    Shifts checkZero bytes ∧ ∀ carry, Undoes checkZero checkZero' bytes carry :=
  ⟨{ lengths := ⟨length_bytes_shiftUp checkZero bytes,
        fun first => length_bytes_shiftDown checkZero first bytes⟩
     doubles := value_shiftUp checkZero bytes
     halves := value_shiftDown_srl checkZero bytes
     halvesSigned := signedValue_shiftDown_sra checkZero bytes },
    fun carry =>
      { down_up := rotateDown_rotateUp checkZero bytes carry checkZero'
        up_down := rotateUp_rotateDown checkZero bytes carry checkZero' }⟩

end Sm83.Alu
