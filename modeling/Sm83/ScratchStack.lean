import Sm83.Fault
import Sm83.Word

/-!
# The scratch stack

Between the micro-steps of one instruction, operands wait on a small stack of bytes.  It is a fixed
buffer of sixteen bytes and the number of them in use; what lies above that number is left over from
earlier use and has no meaning.  Words go on low byte first, so that they come off high byte first.

`toList` is the stack's meaning, top first.  Each operation says what it does to that list, and after
that nobody looks at the buffer.

Operations run in a state that outlives their failure: an operation on a word is two operations on
bytes, and when the second fails the first has happened.
-/

namespace Sm83

/-- How many bytes the scratch stack holds. -/
abbrev scratchCapacity : Nat := 16

/-- A bounded stack of bytes. -/
structure ScratchStack where
  /-- The bytes in use, bottom first, and above them leftovers. -/
  buffer : Vector UInt8 scratchCapacity
  /-- How many bytes are in use. -/
  depth : Nat
  depth_le : depth ≤ scratchCapacity
  deriving Repr

namespace ScratchStack

/-- A stack that was never used. -/
def empty : ScratchStack := ⟨Vector.replicate scratchCapacity 0, 0, Nat.zero_le _⟩

instance : Inhabited ScratchStack := ⟨empty⟩

/-- Forget everything on the stack.  The buffer is left as it is. -/
def clear (s : ScratchStack) : ScratchStack := { s with depth := 0, depth_le := Nat.zero_le _ }

/-- Whether nothing is on the stack. -/
def isEmpty (s : ScratchStack) : Bool := s.depth == 0

/-- The bytes on the stack, top first. -/
def toList (s : ScratchStack) : List UInt8 := (s.buffer.toList.take s.depth).reverse

/-! ## Bytes -/

/-- Put a byte on the stack. -/
def pushByte (value : UInt8) : EStateM Fault ScratchStack Unit := fun s =>
  if h : s.depth < scratchCapacity then
    .ok () { buffer := s.buffer.set s.depth value h, depth := s.depth + 1, depth_le := h }
  else .error .scratchOverflow s

/-- Take the byte off that was put on last. -/
def popByte : EStateM Fault ScratchStack UInt8 := fun s =>
  match h : s.depth with
  | 0 => .error .scratchUnderflow s
  | n + 1 =>
    have hn : n < scratchCapacity := by have := s.depth_le; omega
    .ok s.buffer[n] { s with depth := n, depth_le := Nat.le_of_lt hn }

/-! ## Words -/

/-- Put a word on the stack, its low byte below its high byte. -/
def pushWord (value : UInt16) : EStateM Fault ScratchStack Unit := do
  pushByte (Word.low value)
  pushByte (Word.high value)

/-- Take a word off, its high byte before its low byte. -/
def popWord : EStateM Fault ScratchStack UInt16 := do
  let hi ← popByte
  let lo ← popByte
  return Word.ofBytes hi lo

/-- Take `n` bytes off and forget them. -/
def drop : Nat → EStateM Fault ScratchStack Unit
  | 0 => pure ()
  | n + 1 => do
    let _ ← popByte
    drop n

/-! ## What the operations do to the list -/

@[simp] theorem length_toList (s : ScratchStack) : s.toList.length = s.depth := by
  have := s.depth_le
  simp only [toList, List.length_reverse, List.length_take, Vector.length_toList]
  omega

@[simp] theorem toList_clear (s : ScratchStack) : s.clear.toList = [] := by
  simp [clear, toList]

/-- The stack is empty when its list is. -/
theorem isEmpty_iff (s : ScratchStack) : s.isEmpty = true ↔ s.toList = [] := by
  rw [← List.length_eq_zero_iff, length_toList]
  simp [isEmpty]

/-- Pushing onto a stack that is not full puts the byte in front of the list. -/
theorem pushByte_of_lt (s : ScratchStack) (value : UInt8) (h : s.toList.length < scratchCapacity) :
    ∃ s', pushByte value s = .ok () s' ∧ s'.toList = value :: s.toList := by
  rw [length_toList] at h
  refine ⟨_, by rw [pushByte, dif_pos h], ?_⟩
  simp only [toList, Vector.toList_set]
  rw [List.take_succ_eq_append_getElem (by simpa using h)]
  simp [List.take_set_of_le]

/-- Popping takes the byte in front of the list. -/
theorem popByte_of_cons (s : ScratchStack) {value : UInt8} {rest : List UInt8}
    (h : s.toList = value :: rest) :
    ∃ s', popByte s = .ok value s' ∧ s'.toList = rest := by
  obtain ⟨buffer, depth, hd⟩ := s
  cases depth with
  | zero => simp [toList] at h
  | succ n =>
    have hn : n < buffer.toList.length := by rw [Vector.length_toList]; exact hd
    simp only [toList] at h
    rw [List.take_succ_eq_append_getElem hn, List.reverse_append] at h
    simp only [List.reverse_cons, List.reverse_nil, List.nil_append, List.cons_append,
      List.cons.injEq, Vector.getElem_toList] at h
    refine ⟨⟨buffer, n, Nat.le_of_lt hd⟩, ?_, h.2⟩
    simp only [popByte]
    rw [h.1]

end ScratchStack

end Sm83
