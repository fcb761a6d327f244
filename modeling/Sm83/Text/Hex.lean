/-!
# Hexadecimal text

Addresses and bytes are shown with a fixed number of upper-case digits, so that columns line up and
leading zeros are kept.  `fixed` writes exactly that many digits and drops what does not fit above
them; `shortest` writes as few lower-case digits as the number needs.
-/

namespace Sm83.Text.Hex

/-- The upper-case digit for a number below sixteen. -/
def digit (n : Nat) : Char :=
  if n < 10 then Char.ofNat ('0'.toNat + n) else Char.ofNat ('A'.toNat + (n - 10))

/-- The low `width` digits of `n`, most significant first. -/
def digits : (width n : Nat) → List Char
  | 0, _ => []
  | width + 1, n => digits width (n / 16) ++ [digit (n % 16)]

/-- `n` in exactly `width` upper-case digits. -/
def fixed (width n : Nat) : String := String.ofList (digits width n)

/-- A byte in two digits. -/
def byte (b : UInt8) : String := fixed 2 b.toNat

/-- A word in four digits. -/
def word (w : UInt16) : String := fixed 4 w.toNat

/-- `n` in the fewest lower-case digits. -/
def shortest (n : Nat) : String := String.ofList (Nat.toDigits 16 n)

end Sm83.Text.Hex
