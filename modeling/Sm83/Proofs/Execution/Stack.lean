import Mathlib.Logic.Function.Iterate
import Sm83.Proofs.Execution.Refinement

/-!
# The machine stack on flat memory

A push puts a word into the two slots below the stack pointer, and a pop or a return takes it off
again.  On a flat memory this can be followed from one instruction boundary to the next, wherever the
stack pointer points: slots and code go over the end of the address space alike.

* `Memory.push`, `Memory.word` — a word below an address, and the word at one.
* `StackPair` — what can be pushed and popped, with the opcodes for that.
* `Cpu.instructions` — so many instructions in a row.
* `Poised` — at a boundary, with interrupts disabled or enabled and all else known.
* `Poised.next` — an instruction of control flow leads from one such boundary to the next; of this
  `Poised.push`, `Poised.pop`, `Poised.ret`, `Poised.reti`, `Poised.restart` and `Poised.call` are the
  cases.

What is pushed may go over code and over the interrupt registers.  Only of the speed switch, which
answers in place of the memory on a machine that has one, the laws have to keep clear.
-/

namespace Sm83

open Machine

/-! ## Words in memory -/

namespace Memory

/-- The word at an address, low byte first. -/
def word (mem : Memory) (a : UInt16) : UInt16 := Manual.joined (mem.get (a + 1)) (mem.get a)

/-- The memory after a word was put below an address. -/
def push (mem : Memory) (a : UInt16) (w : UInt16) : Memory :=
  (mem.set (a - 1) (Manual.upper w)).set (a - 2) (Manual.lower w)

/-- What is not in the two slots stays. -/
theorem get_push_of_ne (mem : Memory) {a b : UInt16} (w : UInt16) (high : a - 1 ≠ b)
    (low : a - 2 ≠ b) : (mem.push a w).get b = mem.get b := by
  rw [push, get_set_of_ne _ _ low, get_set_of_ne _ _ high]

theorem word_push (mem : Memory) (a w : UInt16) : (mem.push a w).word (a - 2) = w := by
  have slots : a - 2 ≠ a - 1 := by grind
  rw [word, sub_two_add_one, push, get_set_of_ne _ _ slots, get_set, get_set,
    Manual.joined_upper_lower]

end Memory

/-! ## The machine stack on memory -/

/-- Where the speed switch does not answer. -/
abbrev OffSwitch (speed : Option SpeedSwitch) (a : UInt16) : Prop :=
  speed.isSome = true → a ≠ 0xFF4D

/-- Where it answers for none of the two slots below an address. -/
abbrev SlotsOffSwitch (speed : Option SpeedSwitch) (a : UInt16) : Prop :=
  OffSwitch speed (a - 1) ∧ OffSwitch speed (a - 2)

section Execute

variable {speed : Option SpeedSwitch} {mem : Memory} {events : List Event} {c : Core}

theorem Outside.storeAll_push (r : Registers) (w : UInt16) (off : SlotsOffSwitch speed r.sp) :
    Outside.storeAll ⟨speed, mem, events⟩ (Effect.push r w).writes
      = ⟨speed, mem.push r.sp w, events⟩ := by
  have high : Manual.store (r.sp - 1) (Manual.upper w) ⟨speed, mem, events⟩ = ⟨speed, _, events⟩ :=
    (Manual.store_eq _ _ _).trans (Outside.store_of_off off.1 _)
  show Manual.store (r.sp - 2) (Manual.lower w) (Manual.store (r.sp - 1) _ _) = _
  rw [high, Manual.store_eq, Outside.store_of_off off.2]
  rfl

theorem Action.carryOut_pop (r : Registers) (next : Registers → UInt16 → Effect)
    (low : OffSwitch speed r.sp) (high : OffSwitch speed (r.sp + 1)) :
    (Action.pop r next).carryOut c ⟨speed, mem, events⟩
      = (next { r with sp := r.sp + 2 } (mem.word r.sp)).carryOut c ⟨speed, mem, events⟩ := by
  rw [Action.pop, Action.carryOut, Manual.load_eq, Outside.load_of_off low]
  simp only
  rw [Manual.load_eq, Outside.load_of_off high]
  rfl

theorem nextByte_memory (off : OffSwitch speed c.regs.pc) :
    c.nextByte ⟨speed, mem, events⟩ = (mem.get c.regs.pc,
      { c with regs := { c.regs with pc := c.regs.pc + 1 } }, ⟨speed, mem, events⟩) := by
  rw [Core.nextByte, Manual.load_eq, Outside.load_of_off off]
  rfl

theorem execute_push {reg : Reg16} (slots : SlotsOffSwitch speed c.regs.sp) :
    (Instruction.push reg).execute c ⟨speed, mem, events⟩
      = ({ c with regs := { c.regs with sp := c.regs.sp - 2 } },
        ⟨speed, mem.push c.regs.sp (Manual.word c.regs reg), events⟩) :=
  Prod.ext rfl (Outside.storeAll_push c.regs _ slots)

theorem execute_restart {target : Fin 8} (slots : SlotsOffSwitch speed c.regs.sp) :
    (Instruction.restart target).execute c ⟨speed, mem, events⟩
      = ({ c with regs := { c.regs with sp := c.regs.sp - 2, pc := UInt16.ofNat (8 * target.val) } },
        ⟨speed, mem.push c.regs.sp c.regs.pc, events⟩) :=
  Prod.ext rfl (Outside.storeAll_push c.regs _ slots)

theorem execute_pop {reg : Reg16} (low : OffSwitch speed c.regs.sp)
    (high : OffSwitch speed (c.regs.sp + 1)) :
    (Instruction.pop reg).execute c ⟨speed, mem, events⟩
      = ({ c with
          regs := Manual.setWord { c.regs with sp := c.regs.sp + 2 } reg (mem.word c.regs.sp) },
        ⟨speed, mem, events⟩) :=
  Action.carryOut_pop c.regs (fun r value => { regs := Manual.setWord r reg value }) low high

theorem execute_ret (low : OffSwitch speed c.regs.sp) (high : OffSwitch speed (c.regs.sp + 1)) :
    Instruction.ret.execute c ⟨speed, mem, events⟩
      = ({ c with regs := { c.regs with sp := c.regs.sp + 2, pc := mem.word c.regs.sp } },
        ⟨speed, mem, events⟩) :=
  Action.carryOut_pop c.regs (fun r target => { regs := { r with pc := target } }) low high

theorem execute_reti (low : OffSwitch speed c.regs.sp) (high : OffSwitch speed (c.regs.sp + 1)) :
    Instruction.reti.execute c ⟨speed, mem, events⟩
      = ({ c with
          regs := { c.regs with sp := c.regs.sp + 2, pc := mem.word c.regs.sp }, ime := true },
        ⟨speed, mem, events⟩) :=
  Action.carryOut_pop c.regs (fun r target => { regs := { r with pc := target }, enables := true })
    low high

theorem execute_call (low : OffSwitch speed c.regs.pc) (high : OffSwitch speed (c.regs.pc + 1))
    (slots : SlotsOffSwitch speed c.regs.sp) :
    (Instruction.call .always).execute c ⟨speed, mem, events⟩
      = ({ c with regs := { c.regs with sp := c.regs.sp - 2, pc := mem.word c.regs.pc } },
        ⟨speed, mem.push c.regs.sp (c.regs.pc + 2), events⟩) := by
  have operand : c.nextWord ⟨speed, mem, events⟩ = (mem.word c.regs.pc,
      { c with regs := { c.regs with pc := c.regs.pc + 2 } }, ⟨speed, mem, events⟩) := by
    rw [Core.nextWord, nextByte_memory low]
    simp only
    rw [nextByte_memory (c := { c with regs := { c.regs with pc := c.regs.pc + 1 } }) high,
      ← add_one_add_one]
    rfl
  have stored : Outside.storeAll ⟨speed, mem, events⟩
      (Effect.push { c.regs with pc := c.regs.pc + 2 } (c.regs.pc + 2)).writes
      = ⟨speed, mem.push c.regs.sp (c.regs.pc + 2), events⟩ := Outside.storeAll_push _ _ slots
  show (fun x : UInt16 × Core × Outside Memory => Action.carryOut
    (if Manual.holds x.2.1.regs.f .always then .finish (.call x.2.1.regs x.1) else .set x.2.1.regs)
    x.2.1 x.2.2) (c.nextWord _) = _
  rw [operand]
  exact Prod.ext rfl stored

end Execute

/-! ## From boundary to boundary -/

/-- On to the next instruction boundary, unless a fault has stopped the processor: one instruction, or
one interrupt that is served. -/
def Outcome.nextInstruction {β : Type} [Bus β] (o : Outcome β) : Outcome β :=
  match o with
  | ⟨cpu, bus, _, none⟩ => cpu.stepInstruction bus
  | stopped => stopped

/-- What `n` of them lead to. -/
def Cpu.instructions {β : Type} [Bus β] (cpu : Cpu) (bus : β) (n : Nat) : Outcome β :=
  Outcome.nextInstruction^[n] (.start cpu bus)

/-- The core at a boundary at which no interrupts are about to be enabled, no halt is on and no HALT bug
armed. -/
def Core.calm (r : Registers) (ime : Bool) (a : UInt16) : Core :=
  { regs := r, ime := ime, imePending := false, imeDelay := false, halted := false, haltBug := false
    opcodeAddress := a }

/-- A run that is at such a boundary, with these registers and this memory. -/
structure Poised (speed : Option SpeedSwitch) (r : Registers) (ime : Bool) (mem : Memory)
    (o : Outcome Memory) : Prop where
  faultless : o.fault = none
  boundary : o.cpu.atBoundary = true
  empty : o.cpu.scratch.toList = []
  core : o.cpu.core = .calm r ime o.cpu.opcodeAddress
  speed : o.cpu.speed = speed
  memory : o.bus = mem

theorem Poised.regs {speed : Option SpeedSwitch} {r : Registers} {ime : Bool} {mem : Memory}
    {o : Outcome Memory} (h : Poised speed r ime mem o) : o.cpu.regs = r := congrArg Core.regs h.core

section Poised

variable {speed : Option SpeedSwitch} {r : Registers} {mem : Memory} {o : Outcome Memory}

/-- From such a boundary the opcode is fetched, and noted. -/
theorem executeNext_calm (ime : Bool) (a : UInt16) (off : OffSwitch speed r.pc) :
    executeNext (.calm r ime a) ⟨speed, mem, []⟩
      = (Manual.instruction (mem.get r.pc)).execute (.calm { r with pc := r.pc + 1 } ime r.pc)
        ⟨speed, mem, [.decoded .base (mem.get r.pc) r.pc]⟩ := by
  rw [executeNext, nextByte_memory off]
  rfl

/-- Nothing is left to move on. -/
theorem coreAtFetch_of_calm {cpu : Cpu} {ime : Bool} {a : UInt16} (h : cpu.core = .calm r ime a) :
    cpu.coreAtFetch = .calm r ime a := by
  have moved : cpu.coreAtFetch = { cpu.core with
      ime := cpu.core.ime || cpu.core.imeDelay
      imePending := cpu.core.imePending && cpu.core.imeDelay
      imeDelay := cpu.core.imePending && !cpu.core.imeDelay } := rfl
  rw [moved, h]
  show ({ Core.calm r ime a with ime := ime || false } : Core) = _
  rw [Bool.or_false]
  rfl

/-- A processor at a boundary is poised, if it is awake and the gate and the HALT bug are off. -/
theorem Cpu.poised {cpu : Cpu} (boundary : cpu.atBoundary = true) (empty : cpu.scratch.isEmpty = true)
    (core : cpu.core = .calm cpu.regs false cpu.opcodeAddress) (mem : Memory) :
    Poised cpu.speed cpu.regs false mem (.start cpu mem) :=
  ⟨rfl, boundary, (ScratchStack.isEmpty_iff _).1 empty, core, rfl, rfl⟩

/-- An instruction of control flow, with interrupts disabled, leads from one such boundary to the
next. -/
theorem Poised.next {i : Instruction} {r' : Registers} {ime : Bool} {mem' : Memory}
    (h : Poised speed r false mem o) (fetched : Manual.instruction (mem.get r.pc) = i)
    (control : i.isControl = true) (off : OffSwitch speed r.pc)
    (executes : ∀ events, i.execute (.calm { r with pc := r.pc + 1 } false r.pc) ⟨speed, mem, events⟩
      = (.calm r' ime r.pc, ⟨speed, mem', events⟩)) :
    Poised speed r' ime mem' o.nextInstruction := by
  obtain ⟨cpu, bus, before, fault⟩ := o
  obtain ⟨rfl, boundary, empty, core, rfl, rfl⟩ := h
  have core : cpu.core = .calm r false cpu.opcodeAddress := core
  have sound : cpu.Sound := .of_boundary boundary ((ScratchStack.isEmpty_iff _).2 empty)
  have moved := coreAtFetch_of_calm core
  have disabled : (commitIme cpu).ime = false :=
    congrArg Core.ime ((commitIme_core cpu).trans moved)
  have idle : cpu.serves bus = false := by
    rw [Cpu.serves, disabled, Bool.and_false, Bool.false_and]
  have opcode : opcodeFetched cpu bus = bus.get r.pc := by
    have pc : cpu.regs.pc = r.pc := congrArg (fun c => c.regs.pc) core
    rw [opcodeFetched, pc, Outside.load_of_off off]
    rfl
  have executed : Executed cpu bus (cpu.stepInstruction bus) :=
    sound.executed boundary (congrArg Core.halted core) (congrArg Core.haltBug core) idle
      fun c o still =>
        ends_of_isControl (by rw [opcode, ← Manual.instruction_eq, fetched, control]) o still
  have polled : (Bus.read 0xFF0F (Bus.read 0xFFFF bus).2).2 = bus := rfl
  have result := executed.result
  rw [moved, polled, executeNext_calm _ _ off, fetched, executes] at result
  obtain ⟨core', out⟩ := Prod.mk.inj result
  exact ⟨executed.faultless, executed.boundary, executed.empty,
    core'.trans (congrArg (Core.calm r' ime) (congrArg Core.opcodeAddress core').symm),
    congrArg Outside.speed out, congrArg Outside.bus out⟩

/-- A pair that can be pushed and popped. -/
inductive StackPair
  | bc | de | hl | af
  deriving DecidableEq, Repr

namespace StackPair

/-- Where it is among the word registers. -/
def reg : StackPair → Reg16
  | .bc => .bc
  | .de => .de
  | .hl => .hl
  | .af => .af

/-- The opcode that pushes it. -/
def pushOpcode : StackPair → UInt8
  | .bc => 0xC5
  | .de => 0xD5
  | .hl => 0xE5
  | .af => 0xF5

/-- The opcode that pops it. -/
def popOpcode : StackPair → UInt8
  | .bc => 0xC1
  | .de => 0xD1
  | .hl => 0xE1
  | .af => 0xF1

/-- The code of some pushes and pops. -/
def code (pushes pops : List StackPair) : List UInt8 :=
  pushes.map pushOpcode ++ pops.map popOpcode

variable (pair : StackPair)

theorem instruction_pushOpcode : Manual.instruction pair.pushOpcode = .push pair.reg := by
  cases pair <;> decide +kernel

theorem instruction_popOpcode : Manual.instruction pair.popOpcode = .pop pair.reg := by
  cases pair <;> decide +kernel

/-- It has nothing to do with the other two words. -/
theorem word_at (r : Registers) (pc sp : UInt16) :
    Manual.word { r with pc := pc, sp := sp } pair.reg = Manual.word r pair.reg := by
  cases pair <;> rfl

theorem setWord_at (r : Registers) (pc sp w : UInt16) :
    Manual.setWord { r with pc := pc, sp := sp } pair.reg w
      = { Manual.setWord r pair.reg w with pc := pc, sp := sp } := by
  cases pair <;> rfl

end StackPair

section Instructions

variable {pair : StackPair} {target : Fin 8}

/-- A `PUSH`. -/
theorem Poised.push (h : Poised speed r false mem o) (fetched : mem.get r.pc = pair.pushOpcode)
    (off : OffSwitch speed r.pc) (slots : SlotsOffSwitch speed r.sp) :
    Poised speed { r with pc := r.pc + 1, sp := r.sp - 2 } false
      (mem.push r.sp (Manual.word r pair.reg)) o.nextInstruction := by
  refine h.next (fetched ▸ pair.instruction_pushOpcode) rfl off fun events => ?_
  rw [← pair.word_at r (r.pc + 1) r.sp]
  exact execute_push slots

/-- A `POP`. -/
theorem Poised.pop (h : Poised speed r false mem o) (fetched : mem.get r.pc = pair.popOpcode)
    (off : OffSwitch speed r.pc) (low : OffSwitch speed r.sp) (high : OffSwitch speed (r.sp + 1)) :
    Poised speed (Manual.setWord { r with pc := r.pc + 1, sp := r.sp + 2 } pair.reg (mem.word r.sp))
      false mem o.nextInstruction :=
  h.next (fetched ▸ pair.instruction_popOpcode) rfl off fun _ => execute_pop low high

/-- A return. -/
theorem Poised.ret (h : Poised speed r false mem o)
    (fetched : mem.get r.pc = 0xC9) (off : OffSwitch speed r.pc)
    (low : OffSwitch speed r.sp) (high : OffSwitch speed (r.sp + 1)) :
    Poised speed { r with pc := mem.word r.sp, sp := r.sp + 2 } false mem o.nextInstruction :=
  h.next (fetched ▸ (by decide +kernel : Manual.instruction 0xC9 = .ret)) rfl off fun _ =>
    execute_ret low high

/-- A return that enables interrupts. -/
theorem Poised.reti (h : Poised speed r false mem o)
    (fetched : mem.get r.pc = 0xD9) (off : OffSwitch speed r.pc)
    (low : OffSwitch speed r.sp) (high : OffSwitch speed (r.sp + 1)) :
    Poised speed { r with pc := mem.word r.sp, sp := r.sp + 2 } true mem o.nextInstruction :=
  h.next (fetched ▸ (by decide +kernel : Manual.instruction 0xD9 = .reti)) rfl off fun _ =>
    execute_reti low high

theorem instruction_restart (target : Fin 8) :
    Manual.instruction (0xC7 + 8 * UInt8.ofNat target.val) = .restart target :=
  (by decide +kernel : ∀ target : Fin 8,
    Manual.instruction (0xC7 + 8 * UInt8.ofNat target.val) = .restart target) target

/-- A call of one of the fixed addresses. -/
theorem Poised.restart (h : Poised speed r false mem o)
    (fetched : mem.get r.pc = 0xC7 + 8 * UInt8.ofNat target.val) (off : OffSwitch speed r.pc)
    (slots : SlotsOffSwitch speed r.sp) :
    Poised speed { r with pc := UInt16.ofNat (8 * target.val), sp := r.sp - 2 } false
      (mem.push r.sp (r.pc + 1)) o.nextInstruction :=
  h.next (fetched ▸ instruction_restart target) rfl off fun _ => execute_restart slots

/-- A call. -/
theorem Poised.call (h : Poised speed r false mem o) (fetched : mem.get r.pc = 0xCD)
    (off : OffSwitch speed r.pc) (low : OffSwitch speed (r.pc + 1))
    (high : OffSwitch speed (r.pc + 2)) (slots : SlotsOffSwitch speed r.sp) :
    Poised speed { r with pc := mem.word (r.pc + 1), sp := r.sp - 2 } false
      (mem.push r.sp (r.pc + 3)) o.nextInstruction := by
  have second : r.pc + 1 + 1 = r.pc + 2 := add_one_add_one _
  have third : r.pc + 1 + 2 = r.pc + 3 := UInt16.add_assoc _ _ _
  have decodes : Manual.instruction 0xCD = .call .always := by decide +kernel
  refine h.next (fetched ▸ decodes) rfl off fun events => ?_
  rw [← third]
  exact execute_call (c := .calm { r with pc := r.pc + 1 } false r.pc) low (second ▸ high) slots

end Instructions

end Poised

end Sm83
