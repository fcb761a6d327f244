/-!
# Faults

The ways in which the processor can stop making sense.  Two concern the scratch stack and mean that
an instruction is wired wrong.  The third has an outside cause: an interrupt request that was there
when the processor decided to serve it and is gone when it comes to acknowledge it.
-/

namespace Sm83

/-- A condition under which a machine cycle cannot be completed. -/
inductive Fault
  /-- A byte was popped from an empty scratch stack. -/
  | scratchUnderflow
  /-- A byte was pushed onto a full scratch stack. -/
  | scratchOverflow
  /-- The acknowledge of an interrupt found nothing to acknowledge. -/
  | noPendingInterrupt
  deriving DecidableEq, Repr, Inhabited

/-- What is reported when a fault stops the processor. -/
def Fault.message : Fault → String
  | .scratchUnderflow => "scratch stack underflow: pipeline read a value it never wrote"
  | .scratchOverflow => "scratch stack overflow: pipeline pushed more than 16 bytes"
  | .noPendingInterrupt => "interrupt dispatch started with no pending interrupt"

end Sm83
