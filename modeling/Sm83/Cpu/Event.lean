import Sm83.Instruction.Mnemonic
import Sm83.Interrupts
import Sm83.Log

/-!
# Events

What happens inside the processor besides accesses to the bus, in the order in which it happens.  The
trace of executed instructions and the processor's log are both read off the events.

Data accesses that the processor answers itself, from the register of its speed switch, are events
too: with them and the accesses to the bus, no data access goes unrecorded.  The log passes over
them.
-/

namespace Sm83

/-- Something the processor did. -/
inductive Event
  /-- An opcode was decoded.  `address` is where the instruction starts. -/
  | decoded (table : OpcodeTable) (opcode : UInt8) (address : UInt16)
  /-- The processor was halted and goes on. -/
  | leftHalt (pending : InterruptSet) (ime : Bool) (pc : UInt16)
  /-- The processor halts. -/
  | enteredHalt (address : UInt16)
  /-- Instead of halting, the next move of the program counter is lost. -/
  | haltBugArmed (address : UInt16) (pending : InterruptSet)
  /-- An interrupt is served, with the requests and enables that it was chosen from. -/
  | dispatched (line : InterruptSet) (pc sp : UInt16) (requested enabled : UInt8)
  /-- An opcode without meaning was executed. -/
  | undefinedOpcode (address : UInt16)
  /-- The speed has changed. -/
  | speedSwitched (doubleSpeed : Bool)
  /-- The instruction that stops the processor had nothing to do. -/
  | stopIgnored (address : UInt16)
  /-- Data was read from the register of the speed switch. -/
  | speedRead (value : UInt8)
  /-- Data was written to the register of the speed switch. -/
  | speedWritten (value : UInt8)
  deriving DecidableEq, Repr

namespace Event

/-- The mnemonic an event contributes to the trace. -/
def mnemonic? : Event → Option String
  | .decoded table opcode _ => some (table.mnemonic opcode)
  | _ => none

/-- A number for the log: `0x` and four digits. -/
def address (w : UInt16) : String := "0x" ++ Text.Hex.word w

/-- Two digits behind `0x`. -/
def byte (b : UInt8) : String := "0x" ++ Text.Hex.byte b

/-- Which part of the processor reports the event. -/
def source : Event → Log.Source
  | .decoded _ _ _ => .processor
  | .leftHalt _ _ _ | .enteredHalt _ | .haltBugArmed _ _ | .dispatched _ _ _ _ _ => .interrupts
  | .undefinedOpcode _ | .speedSwitched _ | .stopIgnored _ | .speedRead _ | .speedWritten _ =>
    .execution

/-- How important the event is to the log, if it has a place there at all. -/
def level? : Event → Option Log.Level
  | .decoded _ _ _ => some .trace
  | .leftHalt _ _ _ | .enteredHalt _ | .haltBugArmed _ _ | .dispatched _ _ _ _ _
  | .undefinedOpcode _ | .stopIgnored _ => some .debug
  | .speedSwitched _ => some .info
  | .speedRead _ | .speedWritten _ => none

/-- What the log says of the event; of those that it passes over, nothing. -/
def message : Event → String
  | .decoded table opcode start => address start ++ ": " ++ table.mnemonic opcode
  | .leftHalt pending ime pc =>
    "GB CPU leaving HALT: pending=" ++ pending.names ++ " ime=" ++ toString ime ++ " pc="
      ++ address pc
  | .enteredHalt start => "GB CPU entering HALT at pc=" ++ address start
  | .haltBugArmed start pending =>
    "GB CPU HALT bug armed at pc=" ++ address start ++ ": pending=" ++ pending.names
      ++ " with IME clear"
  | .dispatched line pc sp requested enabled =>
    "GB CPU interrupt: irq=" ++ line.names ++ " vector=" ++ address line.vector ++ " pc="
      ++ address pc ++ " sp=" ++ address sp ++ " IF=" ++ byte (requested &&& lineMask) ++ " IE="
      ++ byte enabled
  | .undefinedOpcode start =>
    "GB CPU undefined opcode at pc=" ++ address start ++ "; executing as NOP"
  | .speedSwitched doubleSpeed => "GB CPU speed switch: double_speed=" ++ toString doubleSpeed
  | .stopIgnored start => "GB CPU STOP at pc=" ++ address start ++ " ignored"
  | .speedRead _ | .speedWritten _ => ""

/-- The event as a log record, for a log with this threshold. -/
def record? (threshold : Option Log.Level) (e : Event) : Option Log.Record :=
  match e.level? with
  | none => none
  | some level => if Log.shows threshold level then some ⟨e.source, level, e.message⟩ else none

end Event

/-- The mnemonics of the instructions among some events. -/
def Event.trace (events : List Event) : List String := events.filterMap Event.mnemonic?

/-- The records of some events, for a log with this threshold. -/
def Event.records (threshold : Option Log.Level) (events : List Event) : List Log.Record :=
  events.filterMap (Event.record? threshold)

end Sm83
