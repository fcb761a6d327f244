import Sm83.Interrupts

/-!
# The bus

Everything outside the processor is a bus: a state that answers reads and takes writes.  Both are
total.  A bus may answer the same address differently each time, so reading changes its state too,
and a device that is busy answers with an open-bus value and drops writes where another machine would
fail.

Peripherals raise interrupts through the bus as well, by setting bits of the request register;
the processor notices at its next instruction boundary.
-/

namespace Sm83

/-- States that can be read and written byte by byte. -/
class Bus (β : Type) where
  /-- The byte at an address, and the bus after it was read. -/
  read : UInt16 → β → UInt8 × β
  /-- The bus after a byte was written to an address. -/
  write : UInt16 → UInt8 → β → β

namespace Bus

/-- Raise interrupt requests: read the request register and write it back with the bits added. -/
def request {β : Type} [Bus β] (lines : InterruptSet) (bus : β) : β :=
  let (requested, bus) := read requestAddress bus
  write requestAddress (requested ||| lines.bits) bus

end Bus

end Sm83
