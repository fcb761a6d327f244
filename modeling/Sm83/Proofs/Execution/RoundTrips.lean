import Sm83.Proofs.Execution.Stack
import Sm83.Proofs.Interrupts.Service

/-!
# What comes back from the stack

A push and a pop are written apart, the one high byte first with a split word, the other low byte first
with the stack pointer moved in between.  They undo each other, for every stack pointer, and so do a
call and a return, and the service of an interrupt and the return from it.

* `Spans`, `Memory.SameOutside` — some bytes in a row, and memories that differ in these at most.
* `Separate` — the code and the slots do not overlap.
* `Poised.nest` — what stands between a push and a pop may use the stack below, and the word is still
  there; from this `Poised.pushes_pops`, by induction on the nesting.
* `Poised.returns`, `Poised.returnsEnabled` — back to the address that was pushed.
* `Cpu.stackRoundTrips` — from every boundary.
-/

namespace Sm83

/-! ## Bytes in a row -/

/-- Whether an address is one of `n` from `start` on, over the end of the address space if need be. -/
def Spans (start : UInt16) (n : Nat) (a : UInt16) : Prop := (a - start).toNat < n

namespace Spans

variable {start a : UInt16} {n : Nat}

theorem head (pos : 0 < n) : Spans start n start := by
  rw [Spans, UInt16.sub_self]
  exact pos

/-- All but the first, and the last. -/
theorem tail (h : Spans (start + 1) n a) : Spans start (n + 1) a := by
  rw [Spans, UInt16.toNat_sub] at *
  rw [UInt16.toNat_add] at h
  have := a.toNat_lt
  have := start.toNat_lt
  simp only [UInt16.reduceToNat] at h
  omega

theorem widen {m : Nat} (h : Spans start n a) (le : n ≤ m) : Spans start m a := Nat.lt_of_lt_of_le h le

/-- The last of them. -/
theorem last (start : UInt16) (n : Nat) : Spans start (n + 1) (start + UInt16.ofNat n) := by
  have : start + UInt16.ofNat n - start = UInt16.ofNat n := by grind
  rw [Spans, this, UInt16.toNat_ofNat']
  omega

/-- The two slots below an address are the last two of any that end there. -/
theorem slots (sp : UInt16) (n : Nat) :
    Spans (sp - UInt16.ofNat (n + 2)) (n + 2) (sp - 1)
      ∧ Spans (sp - UInt16.ofNat (n + 2)) (n + 2) (sp - 2) := by
  have first : sp - 1 - (sp - UInt16.ofNat (n + 2)) = UInt16.ofNat (n + 2) - 1 := by grind
  have second : sp - 2 - (sp - UInt16.ofNat (n + 2)) = UInt16.ofNat (n + 2) - 2 := by grind
  rw [Spans, Spans, first, second, UInt16.toNat_sub, UInt16.toNat_sub, UInt16.toNat_ofNat']
  simp only [UInt16.reduceToNat]
  omega

/-- And not among those that end where they start. -/
theorem not_slots (sp : UInt16) {n : Nat} (room : n + 2 ≤ addressSpace) :
    ¬ Spans (sp - UInt16.ofNat (n + 2)) n (sp - 1)
      ∧ ¬ Spans (sp - UInt16.ofNat (n + 2)) n (sp - 2) := by
  have room : n + 2 ≤ 65536 := room
  have first : sp - 1 - (sp - UInt16.ofNat (n + 2)) = UInt16.ofNat (n + 2) - 1 := by grind
  have second : sp - 2 - (sp - UInt16.ofNat (n + 2)) = UInt16.ofNat (n + 2) - 2 := by grind
  rw [Spans, Spans, first, second, UInt16.toNat_sub, UInt16.toNat_sub, UInt16.toNat_ofNat']
  simp only [UInt16.reduceToNat]
  omega

end Spans

namespace Memory

/-- The bytes that stand at an address. -/
def Holds (mem : Memory) (a : UInt16) : List UInt8 → Prop
  | [] => True
  | b :: rest => mem.get a = b ∧ mem.Holds (a + 1) rest

/-- All but `n` bytes from `start` on are the same. -/
def SameOutside (start : UInt16) (n : Nat) (mem' mem : Memory) : Prop :=
  ∀ a, ¬ Spans start n a → mem'.get a = mem.get a

variable {mem mem' : Memory} {a : UInt16}

theorem holds_append (xs ys : List UInt8) :
    mem.Holds a (xs ++ ys) ↔ mem.Holds a xs ∧ mem.Holds (a + UInt16.ofNat xs.length) ys := by
  induction xs generalizing a with
  | nil =>
    rw [List.nil_append, List.length_nil, show a + UInt16.ofNat 0 = a from UInt16.add_zero a, Holds,
      true_and]
  | cons b xs ih =>
    rw [List.cons_append, Holds, ih, Holds, and_assoc, List.length_cons, UInt16.ofNat_add,
      UInt16.add_comm (UInt16.ofNat _), ← UInt16.add_assoc]
    rfl

/-- They are still there in a memory that is the same there. -/
theorem Holds.congr {xs : List UInt8} (h : mem.Holds a xs)
    (same : ∀ b, Spans a xs.length b → mem'.get b = mem.get b) : mem'.Holds a xs := by
  induction xs generalizing a with
  | nil => trivial
  | cons b xs ih =>
    refine ⟨?_, ih h.2 fun c inside => same c inside.tail⟩
    rw [same a (.head (Nat.succ_pos _))]
    exact h.1

section Nested

variable {pushes pops : List StackPair}

theorem length_code (same : pops.length = pushes.length) :
    (StackPair.code pushes pops).length = 2 * pushes.length := by
  rw [StackPair.code, List.length_append, List.length_map, List.length_map, same, Nat.two_mul]

/-- Between the first push and the last pop the others stand. -/
theorem Holds.nested (same : pops.length = pushes.length) {first last : StackPair}
    (h : mem.Holds a (StackPair.code (first :: pushes) (pops ++ [last]))) :
    mem.get a = first.pushOpcode ∧ mem.Holds (a + 1) (StackPair.code pushes pops)
      ∧ mem.get (a + 1 + UInt16.ofNat (2 * pushes.length)) = last.popOpcode := by
  have opens : mem.get a = first.pushOpcode := h.1
  have split : StackPair.code pushes (pops ++ [last])
      = StackPair.code pushes pops ++ [last.popOpcode] := by
    rw [StackPair.code, StackPair.code, List.map_append, List.append_assoc]
    rfl
  have later : mem.Holds (a + 1) (StackPair.code pushes (pops ++ [last])) := h.2
  rw [split, holds_append, length_code same] at later
  obtain ⟨between, closes, -⟩ := later
  exact ⟨opens, between, closes⟩

end Nested

section SameOutside

variable {sp w : UInt16} {n : Nat}

/-- A push adds its two slots to those below them. -/
theorem SameOutside.push (h : SameOutside (sp - UInt16.ofNat (n + 2)) n mem' (mem.push sp w)) :
    SameOutside (sp - UInt16.ofNat (n + 2)) (n + 2) mem' mem := fun a outside => by
  obtain ⟨high, low⟩ := Spans.slots sp n
  rw [h a fun slot => outside (slot.widen (Nat.le_add_right n 2))]
  exact mem.get_push_of_ne w (fun slot => outside (slot ▸ high)) fun slot => outside (slot ▸ low)

/-- The word is there as long as only the slots below are used. -/
theorem SameOutside.word (h : SameOutside (sp - UInt16.ofNat (n + 2)) n mem' (mem.push sp w))
    (room : n + 2 ≤ addressSpace) : mem'.word (sp - 2) = w := by
  obtain ⟨high, low⟩ := Spans.not_slots sp room
  rw [← mem.word_push sp w, Memory.word, Memory.word, sub_two_add_one, h _ high, h _ low]

end SameOutside

end Memory

/-! ## The words that come back -/

/-- The registers after words were taken off the stack, one after the other. -/
def Registers.popAll (r : Registers) (popped : List (StackPair × UInt16)) : Registers :=
  popped.foldl (fun r x => Manual.setWord r x.1.reg x.2) r

theorem Registers.popAll_at (popped : List (StackPair × UInt16)) (r : Registers) (pc sp : UInt16) :
    popAll { r with pc := pc, sp := sp } popped = { r.popAll popped with pc := pc, sp := sp } := by
  induction popped generalizing r with
  | nil => rfl
  | cons x popped ih =>
    show popAll (Manual.setWord { r with pc := pc, sp := sp } x.1.reg x.2) popped = _
    rw [x.1.setWord_at]
    exact ih _

/-- The last word that is taken off is the last to be put in a pair. -/
theorem Registers.popAll_concat (r : Registers) (popped : List (StackPair × UInt16))
    (pair : StackPair) (w : UInt16) :
    r.popAll (popped ++ [(pair, w)]) = Manual.setWord (r.popAll popped) pair.reg w := List.foldl_append

/-- What pushes and pops come to: the words of the pushed pairs in the popped ones, the last first.
A push changes no pair, so each word is the one that the pair has from the start. -/
def Registers.afterPops (r : Registers) (pushes pops : List StackPair) : Registers :=
  r.popAll (pops.zip (pushes.reverse.map fun pair => Manual.word r pair.reg))

/-- The first pair that is pushed is popped last. -/
theorem Registers.afterPops_nest (r : Registers) {pushes pops : List StackPair}
    (same : pops.length = pushes.length) (first last : StackPair) :
    r.afterPops (first :: pushes) (pops ++ [last])
      = Manual.setWord (r.afterPops pushes pops) last.reg (Manual.word r first.reg) := by
  have lengths : pops.length = (pushes.reverse.map fun pair => Manual.word r pair.reg).length := by
    rw [List.length_map, List.length_reverse, same]
  rw [afterPops, afterPops, List.reverse_cons, List.map_append, List.zip_append lengths,
    ← popAll_concat]
  rfl

theorem Registers.afterPops_at (pushes pops : List StackPair) (r : Registers) (pc sp : UInt16) :
    afterPops { r with pc := pc, sp := sp } pushes pops
      = { r.afterPops pushes pops with pc := pc, sp := sp } := by
  have words : (pushes.reverse.map fun pair => Manual.word { r with pc := pc, sp := sp } pair.reg)
      = pushes.reverse.map fun pair => Manual.word r pair.reg :=
    List.map_congr_left fun pair _ => pair.word_at r pc sp
  rw [afterPops, words]
  exact popAll_at _ r pc sp

/-- Where the slots of nested pushes start. -/
theorem sub_two_sub (sp : UInt16) (n : Nat) :
    sp - 2 - UInt16.ofNat n = sp - UInt16.ofNat (n + 2) := by
  rw [UInt16.ofNat_add]
  grind

/-! ## Code and stack apart -/

/-- The `n` bytes of code at the program counter and the `n` slots below the stack pointer do not
overlap, and the speed switch answers for none of them. -/
structure Separate (speed : Option SpeedSwitch) (r : Registers) (n : Nat) : Prop where
  apart : ∀ a, Spans r.pc n a → ¬ Spans (r.sp - UInt16.ofNat n) n a
  code : ∀ a, Spans r.pc n a → OffSwitch speed a
  slots : ∀ a, Spans (r.sp - UInt16.ofNat n) n a → OffSwitch speed a

namespace Separate

variable {speed : Option SpeedSwitch} {r : Registers} {n : Nat}

/-- More slots than there are addresses would overlap anything. -/
theorem room (h : Separate speed r (n + 2)) : n + 2 ≤ addressSpace :=
  Nat.le_of_not_lt fun wide =>
    h.apart r.pc (.head (Nat.succ_pos _)) (Nat.lt_trans (UInt16.toNat_lt _) wide)

/-- The first push and the last pop use memory. -/
theorem slotsOffSwitch (h : Separate speed r (n + 2)) : SlotsOffSwitch speed r.sp :=
  have ⟨high, low⟩ := Spans.slots r.sp n
  ⟨h.slots _ high, h.slots _ low⟩

/-- What is pushed first leaves the code alone. -/
theorem get_push (h : Separate speed r (n + 2)) (mem : Memory) (w : UInt16) {a : UInt16}
    (inside : Spans r.pc (n + 2) a) : (mem.push r.sp w).get a = mem.get a :=
  mem.get_push_of_ne w (fun same => h.apart a inside (same ▸ (Spans.slots r.sp n).1))
    fun same => h.apart a inside (same ▸ (Spans.slots r.sp n).2)

/-- Between the first opcode and the last. -/
theorem inner (h : Separate speed r (n + 2)) :
    Separate speed { r with pc := r.pc + 1, sp := r.sp - 2 } n := by
  have start : r.sp - 2 - UInt16.ofNat n = r.sp - UInt16.ofNat (n + 2) := sub_two_sub r.sp n
  have inside {a : UInt16} (code : Spans (r.pc + 1) n a) : Spans r.pc (n + 2) a :=
    (code.widen (Nat.le_succ n)).tail
  have below {a : UInt16} (slot : Spans (r.sp - 2 - UInt16.ofNat n) n a) :
      Spans (r.sp - UInt16.ofNat (n + 2)) (n + 2) a := (start ▸ slot).widen (Nat.le_add_right n 2)
  exact ⟨fun a code slot => h.apart a (inside code) (below slot), fun a code => h.code a (inside code),
    fun a slot => h.slots a (below slot)⟩

end Separate

/-! ## Pushes and pops, nested -/

section Nested

variable {speed : Option SpeedSwitch} {r : Registers} {mem : Memory} {o : Outcome Memory}

/-- Between a push and a pop `n` instructions may use the stack below, as long as they leave the stack
pointer where they found it. -/
theorem Poised.nest {first last : StackPair} {n : Nat} {q : Registers} {mem' : Memory}
    (inner : Poised speed { q with pc := r.pc + 1 + UInt16.ofNat n, sp := r.sp - 2 } false mem'
      (Outcome.nextInstruction^[n] o.nextInstruction))
    (separate : Separate speed r (n + 2))
    (closes : mem.get (r.pc + 1 + UInt16.ofNat n) = last.popOpcode)
    (frame : Memory.SameOutside (r.sp - UInt16.ofNat (n + 2)) n mem'
      (mem.push r.sp (Manual.word r first.reg))) :
    Poised speed
      { Manual.setWord q last.reg (Manual.word r first.reg) with
        pc := r.pc + UInt16.ofNat (n + 2), sp := r.sp }
      false mem' (Outcome.nextInstruction^[n + 2] o) := by
  have slots := separate.slotsOffSwitch
  have final : Spans r.pc (n + 2) (r.pc + 1 + UInt16.ofNat n) := (Spans.last _ _).tail
  have kept : mem'.get (r.pc + 1 + UInt16.ofNat n) = mem.get (r.pc + 1 + UInt16.ofNat n) :=
    frame.push _ (separate.apart _ final)
  have after := inner.pop (kept.trans closes) (separate.code _ final) slots.2
    (sub_two_add_one r.sp ▸ slots.1)
  have behind : r.pc + 1 + UInt16.ofNat n + 1 = r.pc + UInt16.ofNat (n + 2) := by
    rw [UInt16.ofNat_add]
    grind
  have popped := last.setWord_at q (r.pc + UInt16.ofNat (n + 2)) r.sp (Manual.word r first.reg)
  simp only [frame.word separate.room, behind, UInt16.sub_add_cancel] at after
  rw [popped] at after
  rwa [Function.iterate_succ_apply', Function.iterate_succ_apply]

/-- Pushes and as many pops.  The induction is on the nesting: what the first pushes the last takes
off, and in between no other slot of theirs is touched. -/
theorem Poised.pushes_pops (h : Poised speed r false mem o) {pushes pops : List StackPair}
    (same : pops.length = pushes.length)
    (code : mem.Holds r.pc (StackPair.code pushes pops))
    (separate : Separate speed r (2 * pushes.length)) :
    ∃ mem', Memory.SameOutside (r.sp - UInt16.ofNat (2 * pushes.length)) (2 * pushes.length) mem' mem
      ∧ Poised speed
        { r.afterPops pushes pops with pc := r.pc + UInt16.ofNat (2 * pushes.length), sp := r.sp }
        false mem' (Outcome.nextInstruction^[2 * pushes.length] o) := by
  induction pushes generalizing r mem o pops with
  | nil =>
    obtain rfl : pops = [] := List.eq_nil_of_length_eq_zero same
    refine ⟨mem, fun _ _ => rfl, ?_⟩
    have start : r.pc + UInt16.ofNat (2 * ([] : List StackPair).length) = r.pc := UInt16.add_zero _
    rw [start]
    exact h
  | cons first pushes ih =>
    obtain ⟨pops, last, rfl⟩ : ∃ others last, pops = others ++ [last] :=
      ⟨_, _, (List.dropLast_concat_getLast (List.ne_nil_of_length_eq_add_one same)).symm⟩
    have same : pops.length = pushes.length := by
      rw [List.length_append] at same
      exact Nat.succ.inj same
    obtain ⟨opens, between, closes⟩ := code.nested same
    rw [List.length_cons, Nat.mul_succ] at separate ⊢
    have between := between.congr fun a inside => separate.get_push mem (Manual.word r first.reg)
      ((Memory.length_code same ▸ inside).widen (Nat.le_succ _)).tail
    have start := h.push opens (separate.code _ (.head (Nat.succ_pos _))) separate.slotsOffSwitch
    obtain ⟨mem', frame, inner⟩ := ih start same between separate.inner
    have frame := sub_two_sub r.sp _ ▸ frame
    rw [Registers.afterPops_at] at inner
    rw [Registers.afterPops_nest r same]
    exact ⟨mem', frame.push, inner.nest (q := r.afterPops pushes pops) separate closes frame⟩

end Nested

/-! ## Calls and returns -/

/-- At an address there is an opcode that the two slots below the stack pointer leave alone, and
for which the speed switch does not answer. -/
structure KeptByPush (speed : Option SpeedSwitch) (mem : Memory) (sp a : UInt16) (opcode : UInt8) :
    Prop where
  stands : mem.get a = opcode
  off : OffSwitch speed a
  high : sp - 1 ≠ a
  low : sp - 2 ≠ a

section Returns

variable {speed : Option SpeedSwitch} {r : Registers} {mem : Memory} {o : Outcome Memory}
  {a w : UInt16}

theorem KeptByPush.push {opcode : UInt8} (h : KeptByPush speed mem r.sp a opcode) :
    (mem.push r.sp w).get a = opcode := by
  rw [mem.get_push_of_ne w h.high h.low, h.stands]

/-- The pushed word is gone to, and the stack pointer is where it was. -/
theorem Registers.after_return (r : Registers) (mem : Memory) (w : UInt16) :
    ({ r with pc := (mem.push r.sp w).word (r.sp - 2), sp := r.sp - 2 + 2 } : Registers)
      = { r with pc := w } := by
  rw [mem.word_push, UInt16.sub_add_cancel]

/-- Back from a subroutine. -/
theorem Poised.returns (h : Poised speed { r with pc := a, sp := r.sp - 2 } false (mem.push r.sp w) o)
    (kept : KeptByPush speed mem r.sp a 0xC9) (slots : SlotsOffSwitch speed r.sp) :
    Poised speed { r with pc := w } false (mem.push r.sp w) o.nextInstruction :=
  r.after_return mem w ▸ h.ret kept.push kept.off slots.2 (sub_two_add_one r.sp ▸ slots.1)

/-- Back from the handler of an interrupt. -/
theorem Poised.returnsEnabled
    (h : Poised speed { r with pc := a, sp := r.sp - 2 } false (mem.push r.sp w) o)
    (kept : KeptByPush speed mem r.sp a 0xD9) (slots : SlotsOffSwitch speed r.sp) :
    Poised speed { r with pc := w } true (mem.push r.sp w) o.nextInstruction :=
  r.after_return mem w ▸ h.reti kept.push kept.off slots.2 (sub_two_add_one r.sp ▸ slots.1)

end Returns

/-! ## Interrupts -/

/-- The number of a line, and that its handler is not where requests are kept. -/
theorem InterruptSet.lowest_line {k : Nat} (isLine : k < 5) :
    (line k).lowest = k ∧ requestAddress ≠ (line k).vector :=
  (by decide : ∀ k < 5, (line k).lowest = k ∧ requestAddress ≠ (line k).vector) k isLine

section Interrupts

variable {cpu : Cpu} {mem : Memory} {line : InterruptSet}

/-- The line that is served is the one that was found. -/
theorem ServedOnMemory.line_eq {k : Nat} (h : ServedOnMemory k cpu mem)
    (present : (Bus.poll mem).1.first? = some line) : line = .line k := by
  obtain ⟨j, -, rfl, ⟨enabled, requested⟩, first⟩ := InterruptSet.first?_and present
  rcases Nat.lt_trichotomy j k with lt | rfl | gt
  · exact absurd ⟨requested, enabled⟩ (h.first j lt)
  · rfl
  · exact absurd h.present.symm (first k gt)

/-- All three writes. -/
theorem ServedOnMemory.memory {k : Nat} (h : ServedOnMemory k cpu mem) :
    cpu.buses mem 5 = (mem.withdraw k).push cpu.regs.sp cpu.returnAddress := by
  rw [h.last, h.low, h.high, h.second, h.acknowledged]
  rfl

/-- To the handler of an interrupt. -/
theorem Cpu.poised_of_serves (boundary : cpu.atBoundary = true) (empty : cpu.scratch.isEmpty = true)
    (awake : cpu.halted = false) (clear : cpu.haltBug = false) (serves : cpu.serves mem = true)
    (present : (Bus.poll mem).1.first? = some line) (slots : SlotsOffSwitch cpu.speed cpu.regs.sp) :
    Poised cpu.speed { cpu.regs with pc := line.vector, sp := cpu.regs.sp - 2 } false
      ((mem.withdraw line.lowest).push cpu.regs.sp cpu.regs.pc) (cpu.stepInstruction mem) := by
  have sound : cpu.Sound := .of_boundary boundary empty
  obtain ⟨k, served⟩ := sound.servesLowest (Cpu.atBoundary_eq_true_iff.1 boundary) awake serves
    fun switch => ⟨slots.1 switch, slots.2 switch⟩
  obtain rfl := served.line_eq present
  obtain ⟨lowest, -⟩ := InterruptSet.lowest_line served.isLine
  have address : cpu.returnAddress = cpu.regs.pc := by
    rw [Cpu.returnAddress, clear]
    rfl
  have reached : cpu.stepInstruction mem = (Outcome.start cpu mem).after 5 :=
    served.calls.toBoundary_eq_after (j := 1) Nat.one_pos (by decide) (by decide)
  obtain ⟨faultless, same⟩ := served.calls.after_cpu (Nat.le_refl 5)
  have memory := served.memory
  have core := served.core
  rw [address] at memory
  rw [← InterruptSet.vector_line served.isLine, ← same] at core
  rw [reached, lowest]
  refine ⟨faultless, ?_, ?_, core.trans ?_, same ▸ served.speed, memory⟩
  · rw [same, served.calls.boundary]
  · rw [same]
    exact (sound.after _ 5).toList_eq_nil (Cpu.atBoundary_eq_true_iff.1 served.calls.boundary)
  · exact congrArg (Core.calm _ false) (congrArg Core.opcodeAddress core).symm

end Interrupts

/-! ## Round trips -/

/-- Interrupts are disabled, and no instruction is about to enable them. -/
structure Cpu.Masked (cpu : Cpu) : Prop where
  ime : cpu.ime = false
  imePending : cpu.imePending = false
  imeDelay : cpu.imeDelay = false

/-- What comes back from the stack of a processor on a memory. -/
structure StackRoundTrips (cpu : Cpu) (mem : Memory) : Prop where
  /-- As many pops as pushes put the words of the pushed pairs into the popped ones, in reverse order,
  and write to the slots of the stack only. -/
  pushes : cpu.Masked → ∀ {pushes pops : List StackPair}, pops.length = pushes.length →
    mem.Holds cpu.regs.pc (StackPair.code pushes pops) →
    Separate cpu.speed cpu.regs (2 * pushes.length) →
    ∃ mem', Memory.SameOutside (cpu.regs.sp - UInt16.ofNat (2 * pushes.length)) (2 * pushes.length)
        mem' mem
      ∧ Poised cpu.speed
        { cpu.regs.afterPops pushes pops with
          pc := cpu.regs.pc + UInt16.ofNat (2 * pushes.length), sp := cpu.regs.sp }
        false mem' (cpu.instructions mem (2 * pushes.length))
  /-- A call of a subroutine that returns at once goes to the instruction behind the call. -/
  call : cpu.Masked → mem.get cpu.regs.pc = 0xCD →
    (∀ a, Spans cpu.regs.pc 3 a → OffSwitch cpu.speed a) → SlotsOffSwitch cpu.speed cpu.regs.sp →
    KeptByPush cpu.speed mem cpu.regs.sp (mem.word (cpu.regs.pc + 1)) 0xC9 →
    Poised cpu.speed { cpu.regs with pc := cpu.regs.pc + 3 } false
      (mem.push cpu.regs.sp (cpu.regs.pc + 3)) (cpu.instructions mem 2)
  /-- So does one of the calls of a fixed address. -/
  restart : cpu.Masked → ∀ {target : Fin 8},
    mem.get cpu.regs.pc = 0xC7 + 8 * UInt8.ofNat target.val →
    OffSwitch cpu.speed cpu.regs.pc → SlotsOffSwitch cpu.speed cpu.regs.sp →
    KeptByPush cpu.speed mem cpu.regs.sp (UInt16.ofNat (8 * target.val)) 0xC9 →
    Poised cpu.speed { cpu.regs with pc := cpu.regs.pc + 1 } false
      (mem.push cpu.regs.sp (cpu.regs.pc + 1)) (cpu.instructions mem 2)
  /-- An interrupt whose handler returns at once goes to where it was found, and may come again. -/
  interrupt : cpu.serves mem = true → ∀ {line : InterruptSet},
    (Bus.poll mem).1.first? = some line → SlotsOffSwitch cpu.speed cpu.regs.sp →
    KeptByPush cpu.speed mem cpu.regs.sp line.vector 0xD9 →
    Poised cpu.speed cpu.regs true ((mem.withdraw line.lowest).push cpu.regs.sp cpu.regs.pc)
      (cpu.instructions mem 2)

theorem Cpu.Masked.core_eq {cpu : Cpu} (h : cpu.Masked) (awake : cpu.halted = false)
    (clear : cpu.haltBug = false) : cpu.core = .calm cpu.regs false cpu.opcodeAddress := by
  rw [Cpu.core, h.ime, h.imePending, h.imeDelay, awake, clear]
  rfl

/-- From every boundary at which the processor is awake and the HALT bug is not armed.  The scratch
stack is empty at all boundaries of a run (`Reachable.sound`). -/
theorem Cpu.stackRoundTrips {cpu : Cpu} (boundary : cpu.atBoundary = true)
    (empty : cpu.scratch.isEmpty = true) (awake : cpu.halted = false) (clear : cpu.haltBug = false)
    (mem : Memory) : StackRoundTrips cpu mem where
  pushes masked _ _ same code separate :=
    (cpu.poised boundary empty (masked.core_eq awake clear) mem).pushes_pops same code separate
  call masked fetched code slots kept :=
    have start := cpu.poised boundary empty (masked.core_eq awake clear) mem
    (start.call fetched (code _ (.head (by decide))) (code _ ((Spans.last _ 1).widen (by decide)))
      (code _ (Spans.last _ 2)) slots).returns kept slots
  restart masked _ fetched off slots kept :=
    have start := cpu.poised boundary empty (masked.core_eq awake clear) mem
    (start.restart fetched off slots).returns kept slots
  interrupt serves line present slots kept := by
    have handler := cpu.poised_of_serves boundary empty awake clear serves present slots
    have kept : KeptByPush cpu.speed (mem.withdraw line.lowest) cpu.regs.sp line.vector 0xD9 := by
      obtain ⟨k, isLine, rfl, -⟩ := InterruptSet.first?_and present
      obtain ⟨-, elsewhere⟩ := InterruptSet.lowest_line isLine
      refine ⟨?_, kept.off, kept.high, kept.low⟩
      rw [Memory.withdraw, Memory.get_set_of_ne _ _ elsewhere, kept.stands]
    exact handler.returnsEnabled kept slots

/-- `PUSH BC` and `POP AF`, where the processor starts. -/
def movesToFlags : Memory := (Memory.zero.set 0x0100 0xC5).set 0x0101 0xF1

theorem movesToFlags_get : movesToFlags.get 0x0100 = 0xC5 ∧ movesToFlags.get 0x0101 = 0xF1 := by
  constructor
  · rw [movesToFlags, Memory.get_set_of_ne _ _ (by decide), Memory.get_set]
  · exact Memory.get_set _ _ _

/-- Of the low byte of `BC` the flags arrive. -/
theorem Cpu.stackRoundTrips_movesToFlags :
    ((Cpu.new .dmg true).instructions movesToFlags 2).cpu.regs
      = { Model.bootRegisters .dmg with
          a := 0x00, f := ⟨false, false, false, true⟩, pc := 0x0102 } := by
  have trips : StackRoundTrips (.new .dmg true) movesToFlags :=
    Cpu.stackRoundTrips rfl rfl rfl rfl movesToFlags
  have masked : (Cpu.new .dmg true).Masked := ⟨rfl, rfl, rfl⟩
  have code : movesToFlags.Holds (Cpu.new .dmg true).regs.pc
      (StackPair.code [.bc] [.af]) := by
    have start : (Cpu.new .dmg true).regs.pc = 0x0100 := rfl
    have next : (0x0100 : UInt16) + 1 = 0x0101 := rfl
    rw [start]
    show movesToFlags.get 0x0100 = 0xC5 ∧ movesToFlags.get (0x0100 + 1) = 0xF1 ∧ True
    rw [next]
    exact ⟨movesToFlags_get.1, movesToFlags_get.2, trivial⟩
  have separate : Separate (Cpu.new .dmg true).speed (Cpu.new .dmg true).regs
      (2 * [StackPair.bc].length) := by
    refine ⟨fun a code slot => ?_, fun _ _ => nofun, fun _ _ => nofun⟩
    have code : (a - 0x0100).toNat < 2 := code
    have slot : (a - 0xFFFC).toNat < 2 := slot
    rw [UInt16.toNat_sub] at code slot
    simp only [UInt16.reduceToNat] at code slot
    have := a.toNat_lt
    omega
  obtain ⟨_, -, poised⟩ := trips.pushes masked (Eq.refl 1) code separate
  have two : 2 * [StackPair.bc].length = 2 := rfl
  rw [two] at poised
  rw [poised.regs]
  decide

end Sm83
