import Sm83.Flags

/-!
# Branch conditions

A conditional jump, call or return asks for one flag to be set or to be clear.  The general form
here asks whether all flags of a mask are set, and for which answer; the four conditions that
opcodes can name are `nz`, `z`, `nc` and `c`.  Unconditional branches use `always`, so that both
kinds share one description.
-/

namespace Sm83

/-- What has to hold of the flags for a branch to be taken. -/
inductive Condition
  /-- The branch is taken whatever the flags. -/
  | always
  /-- The branch is taken when the answer to "are all flags of `mask` set?" is `expected`. -/
  | flags (mask : Flags) (expected : Bool)
  deriving DecidableEq, Repr, Inhabited

namespace Condition

/-- The zero flag is clear. -/
def nz : Condition := .flags { Flags.empty with z := true } false

/-- The zero flag is set. -/
def z : Condition := .flags { Flags.empty with z := true } true

/-- The carry flag is clear. -/
def nc : Condition := .flags { Flags.empty with c := true } false

/-- The carry flag is set. -/
def c : Condition := .flags { Flags.empty with c := true } true

/-- Whether the condition holds of the flags. -/
def holds : Condition → Flags → Bool
  | .always, _ => true
  | .flags mask expected, f => f.contains mask == expected

end Condition

end Sm83
