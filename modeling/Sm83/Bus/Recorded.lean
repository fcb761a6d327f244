import Sm83.Bus

/-!
# A bus that keeps a record

A recorded bus passes every access on and remembers it, so that what a machine cycle did can be read
off afterwards.
-/

namespace Sm83.Bus

/-- One access to the bus. -/
inductive Access
  /-- `value` was read from `address`. -/
  | read (address : UInt16) (value : UInt8)
  /-- `value` was written to `address`. -/
  | write (address : UInt16) (value : UInt8)
  deriving DecidableEq, Repr

/-- Whether the access is a read. -/
def Access.isRead : Access → Bool
  | .read _ _ => true
  | .write _ _ => false

/-- Direction, address and byte, as `R0100:3E`. -/
def Access.text : Access → String
  | .read a value => "R" ++ Text.Hex.word a ++ ":" ++ Text.Hex.byte value
  | .write a value => "W" ++ Text.Hex.word a ++ ":" ++ Text.Hex.byte value

/-- A bus and the accesses it has seen. -/
structure Recorded (β : Type) where
  /-- The accesses, latest first. -/
  latest : List Access
  inner : β

/-- The accesses in the order in which they happened. -/
def Recorded.accesses {β : Type} (b : Recorded β) : List Access := b.latest.reverse

/-- The same bus with an empty record. -/
def Recorded.forget {β : Type} (b : Recorded β) : Recorded β := { b with latest := [] }

instance {β : Type} [Bus β] : Bus (Recorded β) where
  read a b :=
    match b with
    | ⟨latest, inner⟩ =>
      let (value, inner) := read a inner
      (value, ⟨.read a value :: latest, inner⟩)
  write a value b :=
    match b with
    | ⟨latest, inner⟩ => ⟨.write a value :: latest, write a value inner⟩

end Sm83.Bus
