import Sm83.Flags

/-!
# Decimal adjustment and the flag operations

A byte can hold two decimal digits, one in each nibble.  Adding or subtracting two such bytes with
the binary operations leaves a wrong byte whenever a digit passes nine, and the flags say where:
`n` which operation it was, `h` whether the low digit overflowed and `c` whether the high one did.
`daa` repairs the byte from these alone.  Beside it stand the operations that touch nothing but
flags.
-/

namespace Sm83.Alu

/-- What the low digit needs after an addition: six, where it passed nine. -/
def lowCorrection (a : UInt8) (flags : Flags) : Nat :=
  if flags.h || decide (9 < a.toNat % 16) then 6 else 0

/-- Repair a byte after an addition.  The high digit is judged with the low one already corrected,
and a carry that was set stays set. -/
def adjustSum (a : UInt8) (flags : Flags) : Nat × Bool :=
  let low := a.toNat + lowCorrection a flags
  let value := if flags.c || decide (0x9F < low) then low + 0x60 else low
  (value, flags.c || decide (256 ≤ value))

/-- Repair a byte after a subtraction.  Only the borrows count, and `c` stays as it was. -/
def adjustDifference (a : UInt8) (flags : Flags) : Nat × Bool :=
  let low := if flags.h then a.toNat + 250 else a.toNat
  (if flags.c then low + 160 else low, flags.c)

/-- Decimal adjustment after an addition or a subtraction, as `n` tells.  `n` stays and `h` is
cleared. -/
def daa (a : UInt8) (flags : Flags) : UInt8 × Flags :=
  let (value, carry) := if flags.n then adjustDifference a flags else adjustSum a flags
  let result := UInt8.ofNat value
  (result, { z := result == 0, n := flags.n, h := false, c := carry })

/-- Complement of the accumulator; `n` and `h` are set, the others stay. -/
def cpl (a : UInt8) (flags : Flags) : UInt8 × Flags := (~~~a, { flags with n := true, h := true })

/-- Set the carry; `z` stays. -/
def scf (flags : Flags) : Flags := { z := flags.z, n := false, h := false, c := true }

/-- Invert the carry; `z` stays. -/
def ccf (flags : Flags) : Flags := { z := flags.z, n := false, h := false, c := !flags.c }

end Sm83.Alu
