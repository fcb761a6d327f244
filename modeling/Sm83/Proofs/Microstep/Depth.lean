import Sm83.Proofs.Microstep.Position

/-!
# How deep the scratch stack gets

How many bytes a micro-step takes off the scratch stack and puts there does not depend on what it
computes, so the depth of the stack at each point of a row can be told from the row.  A position is
balanced at a depth if from there on no step finds too few bytes, none leaves more than `deepest`, and
the row ends with exactly the bytes that its exit takes.

* `balanced_fetch`, `balanced_instruction`, `balanced_prefixed`, `balanced_interrupt` — all microcode
  is balanced.  The interrupt is from its second step on; its first may have nothing to acknowledge.
* `advance_of_balanced` — a move from a balanced position finds what it needs, and leads to a position
  that is balanced at the depth it leaves.
-/

namespace Sm83

/-! ## Bytes taken and put -/

/-- How many bytes a transfer takes. -/
def Transfer.pops : Transfer → Nat
  | .storeByte _ | .highPage | .unary _ | .testBit _ | .addSpOffset | .jumpRelative => 1
  | .storeWord _ | .alu _ | .incWord | .decWord => 2
  | .addWords | .splitWord _ => 4
  | _ => 0

/-- How many bytes a transfer puts. -/
def Transfer.pushes : Transfer → Nat
  | .loadByte _ | .unary _ => 1
  | .alu op => if op = .cp then 0 else 1
  | .loadWord _ | .constant _ | .highPage | .incWord | .decWord | .addWords | .addSpOffset
  | .stackSlot => 2
  | .splitWord _ => 6
  | _ => 0

/-- How many bytes a machine cycle takes. -/
def MachineCycle.pops : MachineCycle → Nat
  | .read => 2
  | .write => 3
  | .delay => 0

/-- How many bytes a machine cycle puts. -/
def MachineCycle.pushes : MachineCycle → Nat
  | .read => 1
  | .write | .delay => 0

/-- The scratch stack is never deeper. -/
def deepest : Nat := 8

/-- The depth after a step, where the step finds what it needs and leaves no more than it may.  An
acknowledge may fail for other reasons and is left out. -/
def MicroStep.depthAfter : MicroStep → Nat → Option Nat
  | .transfer t, d => if t.pops ≤ d ∧ d - t.pops + t.pushes ≤ deepest then
      some (d - t.pops + t.pushes) else none
  | .cycle c, d => if c.pops ≤ d ∧ d - c.pops + c.pushes ≤ deepest then
      some (d - c.pops + c.pushes) else none
  | .control .acknowledge, _ => none
  | .control _, d => some d

/-- The depth after some steps. -/
def depthAfter : List MicroStep → Nat → Option Nat
  | [], d => some d
  | s :: rest, d => (s.depthAfter d).bind (depthAfter rest)

/-- A row with this ending may leave so many bytes: its ending takes them, and of the rows that can
follow none is left with bytes that it does not take. -/
def Ending.Takes (left : Nat) : Ending → Prop
  | .decode | .exit .prefixed => left = 1
  | .exit .retire => left = 0
  | .exit (.branch _ taken leftover) =>
    left = leftover ∧ leftover ≤ deepest ∧ depthAfter taken leftover = some 0

namespace Position

/-- From this position on, with `d` bytes on the stack, nothing is missing and nothing is left. -/
structure Balanced (d : Nat) (p : Position) : Prop where
  le_deepest : d ≤ deepest
  leaves : ∃ left, depthAfter p.steps d = some left ∧ p.ending.Takes left

/-- What is balanced after a move: the position that it leads to, or where the instruction is over
there are no bytes. -/
def BalancedNext (d : Nat) : Option Position → Prop
  | some p => p.Balanced d
  | none => d = 0

end Position

/-! ## The microcode is balanced -/

open Position

/-- A row with nothing behind it is balanced if it leaves nothing. -/
theorem Position.Balanced.straight {steps : List MicroStep} {d : Nat} (le : d ≤ deepest)
    (h : depthAfter steps d = some 0) : Balanced d ⟨steps, .exit .retire⟩ :=
  ⟨le, 0, h, rfl⟩

theorem balanced_fetch : fetchPosition.Balanced 0 := ⟨Nat.zero_le _, 1, rfl, rfl⟩

theorem balanced_instruction (i : Instruction) : i.microprogram.position.Balanced 0 := by
  refine ⟨Nat.zero_le _, ?_⟩
  cases i with
  | load dst src => cases dst <;> cases src <;> exact ⟨0, rfl, rfl⟩
  | loadImmediate place | modify op place => cases place <;> exact ⟨0, rfl, rfl⟩
  | storeA pointer | loadA pointer => cases pointer <;> exact ⟨0, rfl, rfl⟩
  | accumulate op src => rcases src with (r | _) | _ <;> cases op <;> exact ⟨0, rfl, rfl⟩
  | prefixed => exact ⟨1, rfl, rfl⟩
  -- the operand bytes of a branch are dropped where it is not taken, and used where it is
  | jumpRelative condition => exact ⟨1, rfl, rfl, by decide, rfl⟩
  | jump condition | call condition => exact ⟨2, rfl, rfl, by decide, rfl⟩
  | retIf condition => exact ⟨0, rfl, rfl, by decide, rfl⟩
  | _ => exact ⟨0, rfl, rfl⟩

theorem balanced_prefixed (i : PrefixedInstruction) : Balanced 0 ⟨i.steps, .exit .retire⟩ := by
  refine .straight (Nat.zero_le _) ?_
  cases i with
  | modify op place | testBit n place => cases place <;> rfl

/-- The handler's address is on the stack when the acknowledge is done. -/
theorem balanced_interrupt : Balanced 2 ⟨interruptMicroprogram.steps.tail, .exit .retire⟩ :=
  .straight (by decide) rfl

/-! ## Balanced positions do not fail -/

/-- A transfer that finds its bytes succeeds. -/
theorem Transfer.act_of_le (t : Transfer) (xs : List UInt8) (c : Core) (h : t.pops ≤ xs.length) :
    ∃ ys c', t.act xs c = some (ys, c') ∧ ys.length = xs.length - t.pops + t.pushes := by
  match t, xs, h with
  | .loadByte _, xs, _ | .loadWord _, xs, _ | .constant _, xs, _ | .advancePc, xs, _
  | .stackSlot, xs, _ | .incSp, xs, _ | .incHl, xs, _ | .decHl, xs, _ | .adjust _, xs, _
  | .enableInterruptsLater, xs, _ | .disableInterrupts, xs, _ | .enableInterrupts, xs, _ =>
    exact ⟨_, _, rfl, rfl⟩
  | .storeByte _, _ :: xs, _ | .highPage, _ :: xs, _ | .unary _, _ :: xs, _
  | .testBit _, _ :: xs, _ | .addSpOffset, _ :: xs, _ | .jumpRelative, _ :: xs, _ =>
    exact ⟨_, _, rfl, rfl⟩
  | .storeWord _, _ :: _ :: xs, _ | .incWord, _ :: _ :: xs, _ | .decWord, _ :: _ :: xs, _ =>
    exact ⟨_, _, rfl, rfl⟩
  | .alu op, b :: a :: xs, _ =>
    refine ⟨_, _, rfl, ?_⟩
    by_cases compares : op = .cp
    · simp only [compares, if_true]
      rfl
    · have pushed : (Transfer.alu op).pushes = 1 := if_neg compares
      rw [pushed, if_neg compares]
      rfl
  | .addWords, _ :: _ :: _ :: _ :: xs, _ | .splitWord true, _ :: _ :: _ :: _ :: xs, _
  | .splitWord false, _ :: _ :: _ :: _ :: xs, _ => exact ⟨_, _, rfl, rfl⟩

variable {β : Type} [Bus β]

/-- A machine cycle that finds its bytes succeeds. -/
theorem MachineCycle.act_of_le (c : MachineCycle) (xs : List UInt8) (o : Outside β)
    (h : c.pops ≤ xs.length) :
    ∃ ys o', c.act xs o = some (ys, o') ∧ ys.length = xs.length - c.pops + c.pushes := by
  match c, xs, h with
  | .read, _ :: _ :: xs, _ | .write, _ :: _ :: _ :: xs, _ | .delay, xs, _ => exact ⟨_, _, rfl, rfl⟩

/-- A step that has a depth after it succeeds, and leaves that depth. -/
theorem MicroStep.act_of_depthAfter {s : MicroStep} {v : Scene β} {d : Nat}
    (h : s.depthAfter v.stack.length = some d) (le : v.stack.length ≤ deepest) :
    ∃ v', s.act v = some v' ∧ v'.stack.length = d ∧ d ≤ deepest := by
  obtain ⟨xs, c, o⟩ := v
  match s with
  | .transfer t =>
    simp only [depthAfter] at h
    split at h
    next fits =>
      obtain ⟨ys, c', e, hl⟩ := t.act_of_le xs c fits.1
      cases h
      exact ⟨⟨ys, c', o⟩, by rw [act, e, Option.map_some], hl, fits.2⟩
    next => cases h
  | .cycle s =>
    simp only [depthAfter] at h
    split at h
    next fits =>
      obtain ⟨ys, o', e, hl⟩ := s.act_of_le xs o fits.1
      cases h
      exact ⟨⟨ys, c, o'⟩, by rw [act, e, Option.map_some], hl, fits.2⟩
    next => cases h
  | .control .undefined =>
    cases h
    exact ⟨_, rfl, rfl, le⟩
  | .control .halt =>
    cases h
    simp only [act, Control.act]
    split
    · exact ⟨_, rfl, rfl, le⟩
    · exact ⟨_, rfl, rfl, le⟩
  | .control .stop =>
    cases h
    simp only [act, Control.act]
    split
    · exact ⟨_, rfl, rfl, le⟩
    · exact ⟨_, rfl, rfl, le⟩

/-- A move from a balanced position succeeds, and what it leads to is balanced. -/
theorem Position.act_of_balanced {p : Position} {v : Scene β} (h : p.Balanced v.stack.length) :
    ∃ r v', p.act v = some (r, v') ∧ v'.stack.length ≤ deepest ∧ BalancedNext v'.stack.length r := by
  obtain ⟨le, left, hd, ht⟩ := h
  obtain ⟨xs, c, o⟩ := v
  match p with
  | ⟨s :: rest, ending⟩ =>
    obtain ⟨d, hs, hr⟩ := Option.bind_eq_some_iff.1 hd
    obtain ⟨v', e, hl, hle⟩ := s.act_of_depthAfter hs le
    refine ⟨some ⟨rest, ending⟩, v', by rw [act, e, Option.map_some], hl ▸ hle, hl ▸ hle, left, ?_, ht⟩
    rw [hl]
    exact hr
  | ⟨[], .exit .retire⟩ =>
    cases hd
    exact ⟨none, _, rfl, le, ht⟩
  | ⟨[], .exit (.branch condition taken leftover)⟩ =>
    cases hd
    obtain ⟨hl, hle, hz⟩ := ht
    simp only [act]
    split
    · refine ⟨_, _, rfl, le, .straight le ?_⟩
      exact hl ▸ hz
    · rw [if_pos (Nat.le_of_eq hl.symm)]
      have gone : (xs.drop leftover).length = 0 := by
        simp only at hl
        rw [List.length_drop, hl, Nat.sub_self]
      exact ⟨_, _, rfl, gone ▸ Nat.zero_le _, gone⟩
  | ⟨[], .decode⟩ =>
    cases hd
    obtain ⟨opcode, rfl⟩ := List.length_eq_one_iff.1 ht
    exact ⟨_, _, rfl, Nat.zero_le _, balanced_instruction _⟩
  | ⟨[], .exit .prefixed⟩ =>
    cases hd
    obtain ⟨opcode, rfl⟩ := List.length_eq_one_iff.1 ht
    exact ⟨_, _, rfl, Nat.zero_le _, balanced_prefixed _⟩

/-- The same on a machine, of which the move changes what it changes of the scene. -/
theorem Position.advance_of_balanced {p : Position} {m : Machine β}
    (h : p.Balanced m.cpu.scratch.depth) :
    ∃ r m', p.advance m = .ok r m' ∧ p.act (m.scene []) = some (r, m'.scene [])
      ∧ BalancedNext m'.cpu.scratch.depth r ∧ m'.cpu.frame = m.cpu.frame := by
  rw [← ScratchStack.length_toList] at h
  obtain ⟨r, v', acts, hle, hn⟩ := act_of_balanced (v := m.scene []) h
  obtain ⟨m', e, rfl, kept⟩ := advance_performs acts (Nat.le_trans hle (by decide)) [] m rfl
  refine ⟨r, m', e, acts, ?_, kept⟩
  rw [← ScratchStack.length_toList]
  exact hn

end Sm83
