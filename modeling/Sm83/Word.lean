/-!
# Words and their bytes

The processor moves bytes (`UInt8`) and addresses words (`UInt16`).  Everything that crosses from
one to the other is here: a word is its high byte and its low byte, and a byte read as a signed
displacement is widened to the word that adds it modulo `2 ^ 16`.

* `high_ofBytes`, `low_ofBytes`, `ofBytes_high_low` — a word and its two bytes are the same data.
* `toNat_ofBytes` — the number a pair of bytes stands for, without a remainder to reason about.
* `forall_byte` — there are 256 bytes to try.
-/

namespace Sm83

/-- What is true of the bytes below 256 is true of all. -/
theorem forall_byte {P : UInt8 → Prop} (h : ∀ n : Fin 256, P (.ofNat n)) (b : UInt8) : P b := by
  have := h ⟨b.toNat, b.toNat_lt⟩
  rwa [UInt8.ofNat_toNat] at this

namespace Word

/-- The word whose high byte is `hi` and whose low byte is `lo`. -/
def ofBytes (hi lo : UInt8) : UInt16 := hi.toUInt16 * 256 + lo.toUInt16

/-- The more significant byte of a word. -/
def high (w : UInt16) : UInt8 := (w / 256).toUInt8

/-- The less significant byte of a word. -/
def low (w : UInt16) : UInt8 := w.toUInt8

/-- A byte as a signed displacement.  Bytes from `0x80` on are negative, and adding `0xFF00 + b` is
subtracting `0x100 - b` modulo `2 ^ 16`. -/
def signExtend (b : UInt8) : UInt16 := if b < 0x80 then b.toUInt16 else b.toUInt16 + 0xFF00

/-! ## A word is its two bytes -/

@[simp] theorem toNat_ofBytes (hi lo : UInt8) :
    (ofBytes hi lo).toNat = hi.toNat * 256 + lo.toNat := by
  have := hi.toNat_lt
  have := lo.toNat_lt
  simp only [ofBytes, UInt16.toNat_add, UInt16.toNat_mul, UInt8.toNat_toUInt16, UInt16.reduceToNat]
  omega

@[simp] theorem toNat_high (w : UInt16) : (high w).toNat = w.toNat / 256 := by
  have := w.toNat_lt
  simp only [high, UInt16.toNat_toUInt8, UInt16.toNat_div, UInt16.reduceToNat]
  omega

@[simp] theorem toNat_low (w : UInt16) : (low w).toNat = w.toNat % 256 := by
  simp only [low, UInt16.toNat_toUInt8]

@[simp] theorem high_ofBytes (hi lo : UInt8) : high (ofBytes hi lo) = hi := by
  have := lo.toNat_lt
  apply UInt8.toNat_inj.1
  rw [toNat_high, toNat_ofBytes]
  omega

@[simp] theorem low_ofBytes (hi lo : UInt8) : low (ofBytes hi lo) = lo := by
  have := lo.toNat_lt
  apply UInt8.toNat_inj.1
  rw [toNat_low, toNat_ofBytes]
  omega

@[simp] theorem ofBytes_high_low (w : UInt16) : ofBytes (high w) (low w) = w := by
  apply UInt16.toNat_inj.1
  rw [toNat_ofBytes, toNat_high, toNat_low]
  omega

end Word

end Sm83
