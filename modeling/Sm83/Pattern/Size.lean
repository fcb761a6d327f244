import Sm83.Pattern.Meaning

/-!
# The size of a pattern

A pattern is turned into states of a machine, and a pattern that takes too much memory is refused.  How
much it takes is estimated here from its meaning: repetitions repeat the states of what is repeated.
-/

namespace Sm83.Pattern

/-- The bytes that patterns may take. -/
def largest : Nat := 10485760

/-- The bytes of a state. -/
def stateSize : Nat := 32

/-- The bytes of a state that goes on to two others. -/
def forkSize : Nat := stateSize + 8

/-- The bytes for a single character. -/
def characterSize (code : Nat) : Nat :=
  stateSize * (if code < 0x80 then 1 else if code < 0x800 then 2 else if code < 0x10000 then 3 else 4)

/-- The bytes for the characters of a set.  Those that are not simple take more than one state, and
twenty-eight if there are characters of all lengths. -/
def CharacterSet.size (s : CharacterSet) : Nat :=
  match s with
  | [] => stateSize
  | [(first, last)] =>
    if first = last then characterSize first
    else if s.isSimple then 2 * stateSize
    else 30 * stateSize
  | s =>
    if s.isSimple then 2 * stateSize + 8 * s.length
    else 30 * stateSize + 36 * s.countP fun range => range.1 < 0x80

namespace Meaning

/-- The bytes for what is looked for. -/
def size : Meaning → Nat
  | .empty => stateSize
  | .one set => set.size
  | .look _ => stateSize
  | .both first second => first.size + second.size
  | .either first second => first.size + second.size + forkSize + stateSize
  | .times least none sub =>
    if least = 0 then sub.size + forkSize else least * sub.size + forkSize
  | .times least (some most) sub =>
    least * sub.size + (most - least) * (sub.size + forkSize) + stateSize
  | .group sub => sub.size + 2 * stateSize

/-- The bytes for a pattern: there are some states around what is looked for. -/
def total (m : Meaning) : Nat := m.size + 10 * stateSize

end Meaning

end Sm83.Pattern
