import Sm83.Cpu
import Sm83.Text.Fields

/-!
# The processor as text

A description of the whole processor on one line, for looking at it between two instructions.  Fields
stand in a fixed order with their names; numbers are decimal, and flags are shown by name.  The
scratch stack is left out, which the two dots at the end stand for, and an instruction under way is
shown only as being there.
-/

namespace Sm83

/-- The registers by name. -/
def Registers.text (r : Registers) : String :=
  Text.Fields.group "Registers"
    [("a", toString r.a.toNat), ("f", r.f.names), ("b", toString r.b.toNat),
      ("c", toString r.c.toNat), ("d", toString r.d.toNat), ("e", toString r.e.toNat),
      ("h", toString r.h.toNat), ("l", toString r.l.toNat), ("sp", toString r.sp.toNat),
      ("pc", toString r.pc.toNat)]
    " \x7d"

/-- The speed switch by its two bits. -/
def SpeedSwitch.text (s : SpeedSwitch) : String :=
  Text.Fields.group "Key1"
    [("double_speed", toString s.doubleSpeed), ("prepare_switch", toString s.prepared)] " \x7d"

/-- The whole processor. -/
def Cpu.text (cpu : Cpu) : String :=
  Text.Fields.group "Cpu"
    [("regs", cpu.regs.text), ("ime", toString cpu.ime),
      ("ime_enable_pending", toString cpu.imePending), ("ime_enable_delay", toString cpu.imeDelay),
      ("halted", toString cpu.halted), ("halt_bug", toString cpu.haltBug),
      ("model", cpu.model.name), ("key1", Text.Fields.optional (cpu.speed.map SpeedSwitch.text)),
      ("cursor", Text.Fields.optional (cpu.suspended.map fun _ => "..")),
      ("cycles", toString cpu.cycles)]
    ", .. \x7d"

end Sm83
