/-!
# Reading a count

A count is written in decimal digits, with an optional plus sign in front, and has to fit in 64 bits.
Anything else is refused for one of three reasons.  Characters are judged from left to right and the
first that is wrong decides: one that is no digit, or the digit with which the number becomes too
large.
-/

namespace Sm83.Text.Count

/-- Counts are below this. -/
def bound : Nat := 0x10000000000000000

/-- Why a text is no count. -/
inductive Refusal
  /-- There is nothing to read. -/
  | empty
  /-- Something else stands where a digit should. -/
  | notADigit
  /-- The number does not fit. -/
  | tooLarge
  deriving DecidableEq, Repr

/-- What is reported of a refused text. -/
def Refusal.message : Refusal → String
  | .empty => "cannot parse integer from empty string"
  | .notADigit => "invalid digit found in string"
  | .tooLarge => "number too large to fit in target type"

/-- The value of a decimal digit. -/
def digit? (c : Char) : Option Nat := if c.isDigit then some (c.toNat - '0'.toNat) else none

/-- Go on reading digits, where those before amount to `value`. -/
def readDigits (value : Nat) : List Char → Except Refusal Nat
  | [] => .ok value
  | c :: rest =>
    match digit? c with
    | none => .error .notADigit
    | some d =>
      if value * 10 + d < bound then readDigits (value * 10 + d) rest else .error .tooLarge

/-- The text without a plus sign in front.  A sign with nothing behind it is no number and stays, to
be refused as what it is. -/
def unsigned : List Char → List Char
  | '+' :: c :: rest => c :: rest
  | cs => cs

/-- Read a whole text as a count. -/
def ofString (s : String) : Except Refusal Nat :=
  match unsigned s.toList with
  | [] => .error .empty
  | cs => readDigits 0 cs

end Sm83.Text.Count
