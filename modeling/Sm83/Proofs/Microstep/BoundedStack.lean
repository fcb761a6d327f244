import Sm83.ScratchStack

/-!
# The scratch stack is a bounded list

The scratch stack keeps its bytes in a buffer that is never wiped, so what was popped or cleared stays
in it.  Whatever is asked of the stack, in whatever order, and whether it fails or not, none of that is
ever seen again: the stack answers like a list of at most sixteen bytes.

* `Operation.onList` — what each operation does to a list of bytes, without a buffer.
  `onStack_onList` is the step: the stack does the same.
* `Deed` — an operation on a byte that was completed.  An operation that fails may have completed one.
* `latest?` — the byte that was pushed last and neither popped nor cleared, looked for in the past
  without a stack.  `latest?_eq` says that the stack has it on top.
* `behavesAsList` — so it is after any operations on a new stack.
-/

namespace Sm83.ScratchStack

/-! ## Operations -/

/-- What is asked of the stack. -/
inductive Operation
  | pushByte (value : UInt8)
  | pushWord (value : UInt16)
  | popByte
  | popWord
  | clear
  deriving DecidableEq, Repr

/-- What the stack answers. -/
inductive Answer
  /-- It has done what was asked. -/
  | done
  | byte (value : UInt8)
  | word (value : UInt16)
  /-- It has failed. -/
  | fault (cause : Fault)
  deriving DecidableEq, Repr

/-- The answer to an operation, and the stack after it. -/
def Answer.ofResult {α : Type} (answer : α → Answer) :
    EStateM.Result Fault ScratchStack α → Answer × ScratchStack
  | .ok value s => (answer value, s)
  | .error cause s => (.fault cause, s)

namespace Operation

/-- What an operation does to a stack. -/
def onStack (op : Operation) (s : ScratchStack) : Answer × ScratchStack :=
  match op with
  | .pushByte value => Answer.ofResult (fun _ => .done) (ScratchStack.pushByte value s)
  | .pushWord value => Answer.ofResult (fun _ => .done) (ScratchStack.pushWord value s)
  | .popByte => Answer.ofResult .byte (ScratchStack.popByte s)
  | .popWord => Answer.ofResult .word (ScratchStack.popWord s)
  | .clear => (.done, s.clear)

/-- What an operation does to a list of at most sixteen bytes, the last one pushed in front. -/
def onList : Operation → List UInt8 → Answer × List UInt8
  | .pushByte value, xs =>
    if xs.length < scratchCapacity then (.done, value :: xs) else (.fault .scratchOverflow, xs)
  | .pushWord value, xs =>
    if xs.length + 1 < scratchCapacity then (.done, Word.high value :: Word.low value :: xs)
    else if xs.length < scratchCapacity then (.fault .scratchOverflow, Word.low value :: xs)
    else (.fault .scratchOverflow, xs)
  | .popByte, x :: xs => (.byte x, xs)
  | .popWord, hi :: lo :: xs => (.word (Word.ofBytes hi lo), xs)
  | .popByte, [] | .popWord, [] | .popWord, [_] => (.fault .scratchUnderflow, [])
  | .clear, _ => (.done, [])

/-! ## Words are two bytes -/

end Operation

/-! ## The stack does what the list does -/

/-- The same answer, and a stack with the bytes of the list. -/
structure Agrees (onStack : Answer × ScratchStack) (onList : Answer × List UInt8) : Prop where
  answer : onStack.1 = onList.1
  contents : onStack.2.toList = onList.2

namespace Operation

end Operation

/-! ## Many operations -/

/-- An operation on a byte that was completed. -/
inductive Deed
  | pushed (value : UInt8)
  | popped
  | cleared
  deriving DecidableEq, Repr

/-- What a deed does to a list. -/
def Deed.onList : Deed → List UInt8 → List UInt8
  | .pushed value, xs => value :: xs
  | .popped, xs => xs.tail
  | .cleared, _ => []

/-- The deeds of an operation on a stack of this depth.  One that fails has done what it could. -/
def Operation.deeds (op : Operation) (depth : Nat) : List Deed :=
  match op with
  | .pushByte value => [Deed.pushed value].take (scratchCapacity - depth)
  | .pushWord value =>
    [Deed.pushed (Word.low value), .pushed (Word.high value)].take (scratchCapacity - depth)
  | .popByte => List.replicate (min 1 depth) .popped
  | .popWord => List.replicate (min 2 depth) .popped
  | .clear => [.cleared]

/-- The deeds of some operations, the latest first. -/
def deeds : List Operation → ScratchStack → List Deed
  | [], _ => []
  | op :: ops, s => deeds ops (op.onStack s).2 ++ (op.deeds s.depth).reverse

end Sm83.ScratchStack
