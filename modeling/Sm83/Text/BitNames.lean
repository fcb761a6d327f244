import Sm83.Text.Hex

/-!
# Sets of named bits as text

A register whose bits have names is shown as the names of the bits that are set, separated by
` | `, inside the register's own name.  Bits without a name come last, as one hexadecimal number,
and a register with no bit set reads `0x0`.
-/

namespace Sm83.Text.BitNames

/-- The parts of a set: its names in order, then what has no name. -/
def parts (named : List (String × Bool)) (unnamed : Nat) : List String :=
  (named.filter (·.2)).map (·.1) ++ if unnamed = 0 then [] else ["0x" ++ Hex.shortest unnamed]

/-- A set of named bits under its register's name. -/
def render (register : String) (named : List (String × Bool)) (unnamed : Nat) : String :=
  let shown := match parts named unnamed with
    | [] => "0x0"
    | shown => " | ".intercalate shown
  register ++ "(" ++ shown ++ ")"

end Sm83.Text.BitNames
