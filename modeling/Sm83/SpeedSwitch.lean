/-!
# The speed switch

The colour model can run at double speed.  Its register `KEY1` shows the current speed in bit 7 and
in bit 0 whether a switch has been prepared; all other bits read as one.  A write reaches only the
preparation, and the `STOP` instruction then makes the switch.
-/

namespace Sm83

/-- The state behind the register `KEY1`. -/
structure SpeedSwitch where
  /-- The processor runs at double speed. -/
  doubleSpeed : Bool
  /-- The next `STOP` changes the speed. -/
  prepared : Bool
  deriving DecidableEq, Repr, Inhabited

namespace SpeedSwitch

/-- The address at which the processor finds the register. -/
def address : UInt16 := 0xFF4D

/-- Normal speed and nothing prepared. -/
def initial : SpeedSwitch := ⟨false, false⟩

/-- The byte the register reads as. -/
def read (s : SpeedSwitch) : UInt8 := 0x7E + cond s.doubleSpeed 0x80 0 + cond s.prepared 0x01 0

/-- A write keeps bit 0 of the byte and ignores the rest. -/
def write (s : SpeedSwitch) (value : UInt8) : SpeedSwitch :=
  { s with prepared := value.toNat.testBit 0 }

/-- Change the speed if that was prepared, and tell whether it happened. -/
def switch (s : SpeedSwitch) : Bool × SpeedSwitch :=
  if s.prepared then (true, ⟨!s.doubleSpeed, false⟩) else (false, s)

end SpeedSwitch

end Sm83
