import Sm83.Text.BitNames

/-!
# Interrupt lines

Five lines can request an interrupt.  The request register (`requestAddress`) and the enable register
(`enableAddress`) hold one bit for each, lowest bit first in priority; the three bits above them mean
nothing but are kept where a byte is only passed on.  An `InterruptSet` is such a byte.
-/

namespace Sm83

/-- The address of the register that holds the requests. -/
def requestAddress : UInt16 := 0xFF0F

/-- The address of the register that holds which lines are enabled. -/
def enableAddress : UInt16 := 0xFFFF

/-- The bits that belong to a line. -/
def lineMask : UInt8 := 0x1F

/-- A set of interrupt lines, as the byte that stores it. -/
structure InterruptSet where
  bits : UInt8
  deriving DecidableEq, Repr, Inhabited

namespace InterruptSet

/-- The set a byte stands for, without the bits that belong to no line. -/
def ofByte (b : UInt8) : InterruptSet := ⟨b &&& lineMask⟩

/-- Whether no bit is set. -/
def isEmpty (s : InterruptSet) : Bool := s.bits == 0

/-- Whether bit `k` is set. -/
def has (s : InterruptSet) (k : Nat) : Bool := s.bits.toNat.testBit k

/-- The number of the lowest bit that is set, or 8 where there is none. -/
def lowest (s : InterruptSet) : Nat := (List.range 8).findIdx s.has

/-- The line that is served first: the lowest bit alone. -/
def first? (s : InterruptSet) : Option InterruptSet :=
  if s.isEmpty then none else some ⟨UInt8.ofNat (1 <<< s.lowest)⟩

/-- Where the handler of a line starts: eight bytes for each line from `0x40` on. -/
def vector (s : InterruptSet) : UInt16 := UInt16.ofNat (0x40 + 8 * s.lowest)

/-- The names of the lines, and the bits that belong to none as a number. -/
def names (s : InterruptSet) : String :=
  Text.BitNames.render "Interrupt"
    [("VBLANK", s.has 0), ("LCD_STAT", s.has 1), ("TIMER", s.has 2), ("SERIAL", s.has 3),
      ("JOYPAD", s.has 4)]
    (s.bits &&& ~~~lineMask).toNat

end InterruptSet

end Sm83
