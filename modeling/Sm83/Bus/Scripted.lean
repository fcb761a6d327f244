import Sm83.Bus

/-!
# A bus with scripted answers

Some devices answer a read with something that no write put there.  A scripted bus holds a list of
such answers: a read takes the first one for its address, each answer is given once, and an address
without answers left is read from the bus behind.
-/

namespace Sm83.Bus

/-- A bus with answers prepared for some of its reads. -/
structure Scripted (β : Type) where
  /-- Address and answer, in the order in which they are given. -/
  answers : List (UInt16 × UInt8)
  inner : β

instance {β : Type} [Bus β] : Bus (Scripted β) where
  read a b :=
    match b with
    | ⟨answers, inner⟩ =>
      match answers.find? (·.1 == a) with
      | some answer => (answer.2, ⟨answers.eraseP (·.1 == a), inner⟩)
      | none =>
        let (value, inner) := read a inner
        (value, ⟨answers, inner⟩)
  write a value b :=
    match b with
    | ⟨answers, inner⟩ => ⟨answers, write a value inner⟩

end Sm83.Bus
