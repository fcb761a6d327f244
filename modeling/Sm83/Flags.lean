import Sm83.Text.BitNames

/-!
# The flag register

The flag register holds four flags in its high nibble: `z` (the result was zero), `n` (the last
operation subtracted), `h` (carry out of the low nibble) and `c` (carry).  Its low nibble does not
exist, which the type says outright: a `Flags` is four booleans, and reading a byte as flags loses
the rest.

* `ofByte_toByte` — flags survive being stored as a byte.
* `toNat_toByte_mod` — the low nibble of the stored byte is always clear.
-/

namespace Sm83

/-- The four flags. -/
structure Flags where
  /-- The result was zero. -/
  z : Bool
  /-- The last operation was a subtraction. -/
  n : Bool
  /-- There was a carry out of, or a borrow into, the low nibble. -/
  h : Bool
  /-- There was a carry out of, or a borrow into, the whole value. -/
  c : Bool
  deriving DecidableEq, Repr, Inhabited

namespace Flags

/-- No flag set. -/
def empty : Flags := ⟨false, false, false, false⟩

/-- The flags a byte stands for; its low nibble is dropped. -/
def ofByte (b : UInt8) : Flags :=
  ⟨b.toNat.testBit 7, b.toNat.testBit 6, b.toNat.testBit 5, b.toNat.testBit 4⟩

/-- The byte that stores the flags. -/
def toByte (f : Flags) : UInt8 :=
  cond f.z 0x80 0 + cond f.n 0x40 0 + cond f.h 0x20 0 + cond f.c 0x10 0

/-- Whether every flag of `mask` is set.  The empty mask is contained in everything. -/
def contains (f mask : Flags) : Bool :=
  (!mask.z || f.z) && (!mask.n || f.n) && (!mask.h || f.h) && (!mask.c || f.c)

/-! ## Flags as bytes -/

@[simp] theorem ofByte_toByte (f : Flags) : ofByte f.toByte = f := by
  obtain ⟨z, n, h, c⟩ := f
  cases z <;> cases n <;> cases h <;> cases c <;> rfl

/-- A stored flag byte has a clear low nibble. -/
theorem toNat_toByte_mod (f : Flags) : f.toByte.toNat % 16 = 0 := by
  obtain ⟨z, n, h, c⟩ := f
  cases z <;> cases n <;> cases h <;> cases c <;> rfl

/-! ## Flags as text -/

/-- Four columns, one for each flag: its letter where it is set and a dash where it is clear. -/
def text (f : Flags) : String :=
  String.ofList [cond f.z 'Z' '-', cond f.n 'N' '-', cond f.h 'H' '-', cond f.c 'C' '-']

/-- The names of the flags that are set, highest bit first. -/
def names (f : Flags) : String :=
  Text.BitNames.render "Flags" [("Z", f.z), ("N", f.n), ("H", f.h), ("C", f.c)] 0

end Flags

end Sm83
