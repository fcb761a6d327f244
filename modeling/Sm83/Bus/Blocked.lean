import Sm83.Bus

/-!
# A bus with blocked windows

While a transfer holds part of the bus, the processor cannot reach it: reads of a blocked window give
the open-bus value `0xFF` and writes into it are dropped.
-/

namespace Sm83.Bus

/-- An interval of addresses, both ends included. -/
structure Window where
  first : UInt16
  last : UInt16
  deriving DecidableEq, Repr

/-- Whether an address lies in the window. -/
def Window.contains (w : Window) (a : UInt16) : Bool := decide (w.first ≤ a) && decide (a ≤ w.last)

/-- A bus some of whose addresses are out of reach. -/
structure Blocked (β : Type) where
  windows : List Window
  inner : β

/-- Whether an address is out of reach. -/
def Blocked.isBlocked {β : Type} (b : Blocked β) (a : UInt16) : Bool := b.windows.any (·.contains a)

instance {β : Type} [Bus β] : Bus (Blocked β) where
  read a b :=
    if b.isBlocked a then (0xFF, b)
    else match b with
      | ⟨windows, inner⟩ =>
        let (value, inner) := read a inner
        (value, ⟨windows, inner⟩)
  write a value b :=
    if b.isBlocked a then b
    else match b with
      | ⟨windows, inner⟩ => ⟨windows, write a value inner⟩

end Sm83.Bus
