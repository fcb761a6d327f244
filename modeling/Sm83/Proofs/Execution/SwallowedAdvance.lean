import Sm83.Proofs.Execution.Refinement
import Sm83.Proofs.Execution.Traces
import Sm83.Proofs.Interrupts.Halting
import Sm83.Proofs.Run.Isolation
import Sm83.Proofs.Run.Models

/-!
# The advance that the HALT bug swallows

With the HALT bug armed the program counter does not move on when the next opcode is fetched.  From
there on the instruction takes its usual course.  So it does what it would do one byte earlier, without
the bug, if its opcode stood there: operands are read from where the opcode is, and jumps and return
addresses come out one lower.

* `Cpu.rewound`, `Memory.doubled` — the processor one byte earlier, and the memory with the opcode
  there.
* `Apart.ends_rewound` — both come to the same end, with the same accesses after the fetch.
* `SwallowsAdvance`, `Reachable.swallowsAdvance` — the two runs to the next boundary, for all opcodes
  that do not access the byte in front of their own.
* `Cpu.Sound.loads_opcode` — the smallest instance that shows: an opcode that is its own operand.
-/

namespace Sm83

open Machine
open Bus (Access Recorded)

/-! ## Memories that differ at one address -/

/-- Memories that are alike but for one address are so for a processor that keeps away from there. -/
theorem Lockstep.elsewhere {a : UInt16} (polled : enableAddress ≠ a ∧ requestAddress ≠ a)
    (value value' : UInt8) :
    Lockstep (· ≠ a) (SwitchElsewhere a) (Memory.AlikeExcept a value value') where
  polled := polled
  shared _ _ _ h := h.1
  set _ _ h := ⟨rfl, fun _ => h.2 rfl⟩
  stops _ _ h := .inl h.1
  read b _ _ _ _ other _ _ h := ⟨h.elsewhere b other, h⟩
  write _ x _ _ _ _ other _ _ h := h.set other x

/-! ## Fetching from memory -/

section Memory

variable {cpu : Cpu} {mem : Memory}

/-- Fetching reads, so it leaves memory as it is. -/
theorem busFetched_memory (cpu : Cpu) (mem : Memory) : busFetched cpu mem = mem := by
  rw [busFetched, Demand.unlessSwitch]
  split <;> rfl

/-- The opcode is the byte at the program counter. -/
theorem opcodeFetched_memory (cpu : Cpu)
    (off : cpu.speed.isSome = true → cpu.regs.pc ≠ SpeedSwitch.address) :
    opcodeFetched cpu (Recorded.mk [] mem) = mem.get cpu.regs.pc := by
  rw [opcodeFetched, Outside.load_of_off off]
  rfl

/-- The record of a fetch, latest access first. -/
def fetchRecord (a : UInt16) (mem : Memory) : List Access :=
  .read a (mem.get a) :: (Bus.polling mem).reverse

theorem sceneFetched_bus_memory (cpu : Cpu)
    (off : cpu.speed.isSome = true → cpu.regs.pc ≠ SpeedSwitch.address) :
    (sceneFetched cpu (Recorded.mk [] mem)).out.bus = ⟨fetchRecord cpu.regs.pc mem, mem⟩ := by
  rw [sceneFetched, Outside.fetched, Outside.load_of_off off]
  rfl

/-- The byte behind the prefix is read from a memory that the call before has left alone. -/
theorem Cpu.Sound.byteRead_of_prefix (h : cpu.Sound) (boundary : cpu.suspended = none)
    (awake : cpu.halted = false) (idle : cpu.serves mem = false)
    (prefixed : opcodeFetched cpu (Recorded.mk [] mem) = 0xCB) {a : UInt16}
    (off : cpu.speed.isSome = true → a ≠ SpeedSwitch.address) :
    byteRead a cpu.speed (cpu.buses (Recorded.mk [] mem) 1) = mem.get a := by
  have idle : cpu.serves (Recorded.mk [] mem) = false := idle
  have live : Instruction.ofOpcode (opcodeFetched cpu (Recorded.mk [] mem)) ≠ .halt := by
    rw [prefixed, ofOpcode_prefix]
    nofun
  have fetched : (cpu.step (Recorded.mk [] mem)).bus = busFetched cpu (Recorded.mk [] mem) :=
    congrArg Upshot.bus (h.step_fetching boundary awake idle live).2
  have first : cpu.buses (Recorded.mk [] mem) 1 = (cpu.step (Recorded.mk [] mem)).bus := rfl
  rw [byteRead, Outside.load_of_off off, first, fetched, busFetched_recorded, busFetched_memory]
  rfl

end Memory

/-! ## One advance is swallowed -/

/-- The memory in which the byte at an address stands in front of it as well. -/
def Memory.doubled (mem : Memory) (a : UInt16) : Memory := mem.set (a - 1) (mem.get a)

/-- The processor one byte earlier, without the HALT bug. -/
def Cpu.rewound (cpu : Cpu) : Cpu :=
  { cpu with haltBug := false, regs := { cpu.regs with pc := cpu.regs.pc - 1 } }

/-- The runs to the next boundary of a processor with the HALT bug armed, and of the one that is
rewound. -/
structure SwallowsAdvance (cpu : Cpu) (mem : Memory) (o o' : Outcome (Recorded Memory)) : Prop where
  /-- Both come to the next boundary without a fault, in the same number of calls. -/
  calls : ∃ n, (TakesCalls n cpu (cpu.buses (Recorded.mk [] mem))
      ∧ o = (Outcome.start cpu (Recorded.mk [] mem)).after n)
    ∧ TakesCalls n cpu.rewound (cpu.rewound.buses (Recorded.mk [] (mem.doubled cpu.regs.pc)))
      ∧ o' = (Outcome.start cpu.rewound (Recorded.mk [] (mem.doubled cpu.regs.pc))).after n
  faultless : o.fault = none ∧ o'.fault = none
  /-- They fetch the same opcode, from different addresses.  After that all accesses are the same. -/
  accesses : ∃ rest,
    o.bus.accesses = Bus.polling mem ++ .read cpu.regs.pc (mem.get cpu.regs.pc) :: rest
      ∧ o'.bus.accesses
        = Bus.polling mem ++ .read (cpu.regs.pc - 1) (mem.get cpu.regs.pc) :: rest
  /-- Both end with the same registers and the same interrupt state, -/
  alike : o.cpu.Alike o'.cpu
  speed : o'.cpu.speed = o.cpu.speed
  /-- and with the same memory but for the byte that is different from the start. -/
  memory : Memory.AlikeExcept (cpu.regs.pc - 1) (mem.get (cpu.regs.pc - 1)) (mem.get cpu.regs.pc)
    o.bus.inner o'.bus.inner

/-- What `rewound` starts from differs from what the other starts from at one address. -/
theorem Memory.alikeExcept_doubled (mem : Memory) (a : UInt16) :
    AlikeExcept (a - 1) (mem.get (a - 1)) (mem.get a) mem (mem.doubled a) :=
  ⟨fun _ other => get_set_of_ne _ _ other.symm, rfl, get_set ..⟩

section Swallows

variable {cpu : Cpu} {mem : Memory}

/-- Memories and records that have been treated alike since the opcode was fetched, from its address
and from the one before. -/
def FetchedApart (cpu : Cpu) (mem : Memory) : Recorded Memory → Recorded Memory → Prop :=
  Bus.Since (fetchRecord cpu.regs.pc mem)
    (.read (cpu.regs.pc - 1) (mem.get cpu.regs.pc) :: (Bus.polling mem).reverse)
    (Memory.AlikeExcept (cpu.regs.pc - 1) (mem.get (cpu.regs.pc - 1)) (mem.get cpu.regs.pc))

/-- Where the HALT bug can be told from a processor without it. -/
structure Apart (cpu : Cpu) : Prop where
  requests : requestAddress ≠ cpu.regs.pc - 1
  enables : enableAddress ≠ cpu.regs.pc - 1
  here : cpu.speed.isSome = true → cpu.regs.pc ≠ SpeedSwitch.address
  before : cpu.speed.isSome = true → cpu.regs.pc - 1 ≠ SpeedSwitch.address

namespace Apart

/-- The byte that is fetched is the same. -/
theorem get_doubled (mem : Memory) (a : UInt16) :
    (mem.doubled a).get (a - 1) = mem.get a ∧ (mem.doubled a).get a = mem.get a :=
  ⟨Memory.get_set .., Memory.get_set_of_ne _ _ (by grind)⟩

/-- Both polls find the same. -/
theorem polled (h : Apart cpu) (mem : Memory) :
    (mem.doubled cpu.regs.pc).get enableAddress = mem.get enableAddress
      ∧ (mem.doubled cpu.regs.pc).get requestAddress = mem.get requestAddress :=
  ⟨(mem.alikeExcept_doubled cpu.regs.pc).elsewhere _ h.enables,
    (mem.alikeExcept_doubled cpu.regs.pc).elsewhere _ h.requests⟩

theorem polling_doubled (h : Apart cpu) (mem : Memory) :
    Bus.polling (mem.doubled cpu.regs.pc) = Bus.polling mem := by
  rw [Memory.polling_eq, Memory.polling_eq, (h.polled mem).1, (h.polled mem).2]

theorem serves_rewound (h : Apart cpu) (mem : Memory) :
    cpu.rewound.serves (mem.doubled cpu.regs.pc) = cpu.serves mem := by
  rw [Cpu.serves, Cpu.serves, Memory.poll_eq, Memory.poll_eq, (h.polled mem).1, (h.polled mem).2,
    commitIme_eq, commitIme_eq]
  rfl

theorem opcode_rewound (h : Apart cpu) (mem : Memory) :
    opcodeFetched cpu.rewound (Recorded.mk [] (mem.doubled cpu.regs.pc))
      = opcodeFetched cpu (Recorded.mk [] mem) := by
  rw [opcodeFetched_memory cpu h.here, opcodeFetched_memory cpu.rewound h.before]
  exact (get_doubled mem cpu.regs.pc).1

/-- The instruction starts with the program counter at the opcode, which was read from there or from
the byte in front of it. -/
theorem core_rewound (armed : cpu.haltBug = true) (b b' : Recorded Memory) :
    (sceneFetched cpu.rewound b').core
      = (sceneFetched cpu b).core.addressed (cpu.regs.pc - 1) := by
  rw [sceneFetched_core, sceneFetched_core, commitIme_eq, commitIme_eq, armed]
  simp only [Cpu.rewound, Core.addressed, Bool.false_eq_true, if_false, if_true,
    UInt16.sub_add_cancel]
  rfl

/-- An instruction that keeps away from the byte in front of its opcode takes the same course. -/
theorem ends_rewound (h : Apart cpu) (armed : cpu.haltBug = true) (mem : Memory) {p : Position}
    {w : Scene (Recorded Memory)} (ends : Ends p (sceneFetched cpu (Recorded.mk [] mem)) w)
    (misses : ∀ x ∈ w.out.bus.latest, x.address ≠ cpu.regs.pc - 1) :
    ∃ w', Ends p (sceneFetched cpu.rewound (Recorded.mk [] (mem.doubled cpu.regs.pc))) w'
      ∧ w'.core = w.core.addressed w'.core.opcodeAddress ∧ w'.out.speed = w.out.speed
      ∧ FetchedApart cpu mem w.out.bus w'.out.bus := by
  let v := sceneFetched cpu (Recorded.mk [] mem)
  let v' := sceneFetched cpu.rewound (Recorded.mk [] (mem.doubled cpu.regs.pc))
  have bus : v.out.bus = ⟨fetchRecord cpu.regs.pc mem, mem⟩ := sceneFetched_bus_memory cpu h.here
  have bus' : v'.out.bus = ⟨.read (cpu.regs.pc - 1) (mem.get cpu.regs.pc) :: (Bus.polling mem).reverse,
      mem.doubled cpu.regs.pc⟩ := by
    refine (sceneFetched_bus_memory cpu.rewound h.before).trans ?_
    rw [fetchRecord, h.polling_doubled]
    exact congrArg (fun x => Recorded.mk (.read _ x :: _) _) (get_doubled mem cpu.regs.pc).1
  -- the second scene with the notes of the first one is abreast of it
  let u : Scene (Recorded Memory) := ⟨[], v.core, { v'.out with events := v.out.events }⟩
  have retold : u.retold (cpu.regs.pc - 1) v'.out.events = v' := by
    have core : v'.core = v.core.addressed (cpu.regs.pc - 1) := core_rewound armed _ _
    rw [Scene.retold, ← core]
    rfl
  have abreast : Abreast True (SwitchElsewhere (cpu.regs.pc - 1))
      (FetchedApart cpu mem)
      (some p) v u := by
    have speed : v.out.speed = cpu.speed := sceneFetched_speed cpu _
    have speed' : v'.out.speed = cpu.speed := sceneFetched_speed cpu.rewound _
    refine ⟨rfl, rfl, fun _ => rfl, rfl, ⟨speed'.trans speed.symm, speed ▸ h.before⟩, [], ?_, ?_, ?_⟩
    · rw [bus]
      rfl
    · exact congrArg Recorded.latest bus'
    · rw [bus, show u.out.bus = _ from bus']
      exact mem.alikeExcept_doubled cpu.regs.pc
  have lock := Lockstep.elsewhere ⟨h.enables, h.requests⟩ (mem.get (cpu.regs.pc - 1))
    (mem.get cpu.regs.pc)
  obtain ⟨w₀, ends₀, last⟩ := lock.ends ends misses abreast
  obtain ⟨events, ends'⟩ := ends₀.retold (cpu.regs.pc - 1) v'.out.events
  rw [retold] at ends'
  refine ⟨_, ends', ?_, last.out.speed.1, last.out.bus⟩
  show w₀.core.addressed (cpu.regs.pc - 1) = _
  rw [last.core]
  rfl

/-- Both take the same number of cycles.  Of a prefixed instruction that depends on its second byte,
which both read at the program counter. -/
theorem cyclesFetched_rewound (h : Apart cpu) (sound : cpu.Sound) (sound' : cpu.rewound.Sound)
    (boundary : cpu.suspended = none) (armed : cpu.haltBug = true) (awake : cpu.halted = false)
    (idle : cpu.serves mem = false) :
    cyclesFetched cpu.rewound (cpu.rewound.buses (Recorded.mk [] (mem.doubled cpu.regs.pc)))
      = cyclesFetched cpu (cpu.buses (Recorded.mk [] mem)) := by
  have opcode : opcodeFetched cpu.rewound (cpu.rewound.buses _ 0)
      = opcodeFetched cpu (cpu.buses (Recorded.mk [] mem) 0) := h.opcode_rewound mem
  rw [cyclesFetched, cyclesFetched, opcode, armed, if_pos rfl]
  by_cases prefixed : opcodeFetched cpu (Recorded.mk [] mem) = 0xCB
  · have second := sound.byteRead_of_prefix boundary awake idle prefixed h.here
    have second' := sound'.byteRead_of_prefix boundary awake ((h.serves_rewound mem).trans idle)
      ((h.opcode_rewound mem).trans prefixed) h.here
    have here : cpu.rewound.regs.pc + 1 = cpu.regs.pc := UInt16.sub_add_cancel _ _
    rw [(get_doubled mem cpu.regs.pc).2, ← second] at second'
    rw [show cpu.rewound.haltBug = false from rfl, if_neg Bool.false_ne_true, here, second']
    rfl
  · exact publishedCycles_of_ne prefixed _ _ _

end Apart

/-- A HALT bug that is armed makes the next instruction that of the processor one byte earlier, if
the byte there is the opcode too. -/
theorem Reachable.swallowsAdvance (h : Reachable cpu) (boundary : cpu.atBoundary = true)
    (armed : cpu.haltBug = true) (idle : cpu.serves mem = false)
    (registers : cpu.regs.pc - 1 ≠ requestAddress ∧ cpu.regs.pc - 1 ≠ enableAddress)
    (switch : cpu.model = .cgb →
      cpu.regs.pc ≠ SpeedSwitch.address ∧ cpu.regs.pc - 1 ≠ SpeedSwitch.address)
    (misses : ∀ x ∈ (cpu.stepInstruction (Recorded.mk [] mem)).bus.accesses,
      x.address ≠ cpu.regs.pc - 1) :
    SwallowsAdvance cpu mem (cpu.stepInstruction (Recorded.mk [] mem))
      (cpu.rewound.stepInstruction (Recorded.mk [] (mem.doubled cpu.regs.pc))) := by
  have boundary : cpu.suspended = none := Cpu.atBoundary_eq_true_iff.1 boundary
  have awake : cpu.halted = false := Bool.eq_false_iff.2 fun halted =>
    Bool.false_ne_true ((h.resting.halted halted).2.symm.trans armed)
  have apart : Apart cpu := ⟨registers.1.symm, registers.2.symm,
    fun colour => (switch (h.isSome_speed.1 colour)).1,
    fun colour => (switch (h.isSome_speed.1 colour)).2⟩
  have sound := h.sound
  have sound' : cpu.rewound.Sound := ⟨sound.empty, sound.within⟩
  obtain ⟨w, ends⟩ := (Instruction.ofOpcode (opcodeFetched cpu (Recorded.mk [] mem))).ends
    (c := (sceneFetched cpu (Recorded.mk [] mem)).core) (sceneFetched cpu (Recorded.mk [] mem)).out
    (by rw [sceneFetched_core])
  have idle' : cpu.serves (Recorded.mk [] mem) = false := idle
  have completes := sound.completes boundary awake idle' ends
  have bus : (cpu.stepInstruction (Recorded.mk [] mem)).bus = w.out.bus :=
    congrArg (fun v => v.out.bus) completes.scene
  obtain ⟨w', ends', core, speed, later, record, record', memories⟩ :=
    apart.ends_rewound armed mem ends fun x member => misses x (by
      rw [Recorded.accesses, bus]
      exact List.mem_reverse.2 member)
  have idle' : cpu.rewound.serves (Recorded.mk [] (mem.doubled cpu.regs.pc)) = false :=
    (apart.serves_rewound mem).trans idle
  have completes' := sound'.completes boundary awake idle' (by rwa [apart.opcode_rewound])
  have bus' : (cpu.rewound.stepInstruction (Recorded.mk [] (mem.doubled cpu.regs.pc))).bus
      = w'.out.bus := congrArg (fun v => v.out.bus) completes'.scene
  have cycles := apart.cyclesFetched_rewound sound sound' boundary armed awake idle
  refine ⟨⟨_, ⟨completes.calls, completes.reached⟩, cycles ▸ completes'.calls,
      cycles ▸ completes'.reached⟩,
    ⟨completes.faultless, completes'.faultless⟩, ⟨later.reverse, ?_, ?_⟩, ?_, ?_, ?_⟩
  · simp only [Recorded.accesses, bus, record, fetchRecord, List.reverse_append, List.reverse_cons,
      List.reverse_reverse, List.append_assoc, List.singleton_append]
  · simp only [Recorded.accesses, bus', record', List.reverse_append, List.reverse_cons,
      List.reverse_reverse, List.append_assoc, List.singleton_append]
  · have cores := (congrArg Scene.core completes'.scene).trans
      (core.trans (congrArg (Core.addressed · _) (congrArg Scene.core completes.scene).symm))
    exact .of_core cores (completes'.suspended.trans completes.suspended.symm)
  · exact (congrArg (fun v => v.out.speed) completes'.scene).trans
      (speed.trans (congrArg (fun v => v.out.speed) completes.scene).symm)
  · rwa [bus, bus']

/-- An instruction that loads the byte behind its opcode loads its opcode. -/
theorem Cpu.Sound.loads_opcode (h : cpu.Sound) (boundary : cpu.suspended = none)
    (awake : cpu.halted = false) (armed : cpu.haltBug = true) (idle : cpu.serves mem = false)
    (off : cpu.speed.isSome = true → cpu.regs.pc ≠ SpeedSwitch.address) {r : Reg8}
    (loads : Instruction.ofOpcode (mem.get cpu.regs.pc) = .loadImmediate (.reg r)) :
    (cpu.stepInstruction (Recorded.mk [] mem)).bus.accesses = Bus.polling mem
        ++ [.read cpu.regs.pc (mem.get cpu.regs.pc), .read cpu.regs.pc (mem.get cpu.regs.pc)]
      ∧ (cpu.stepInstruction (Recorded.mk [] mem)).cpu.regs
        = Registers.setByte { cpu.regs with pc := cpu.regs.pc + 1 } r (mem.get cpu.regs.pc) := by
  let v := sceneFetched cpu (Recorded.mk [] mem)
  have regs : v.core.regs = cpu.regs := by
    rw [show v.core = _ from sceneFetched_core cpu _, armed, if_pos rfl]
  have clear : v.core.haltBug = false := by rw [show v.core = _ from sceneFetched_core cpu _]
  have speed : v.out.speed = cpu.speed := sceneFetched_speed cpu _
  have loaded : v.out.load cpu.regs.pc = (mem.get cpu.regs.pc, { v.out with
      bus := ⟨.read cpu.regs.pc (mem.get cpu.regs.pc) :: fetchRecord cpu.regs.pc mem, mem⟩ }) := by
    rw [Outside.load_of_off (speed ▸ off), show v.out.bus = _ from sceneFetched_bus_memory cpu off]
    rfl
  have instruction : Instruction.ofOpcode (opcodeFetched cpu (Recorded.mk [] mem))
      = .loadImmediate (.reg r) := by rw [opcodeFetched_memory cpu off, loads]
  have idle : cpu.serves (Recorded.mk [] mem) = false := idle
  have completes := h.completes boundary awake idle
    (ends_of_isData (instruction ▸ rfl) v.out clear)
  rw [instruction] at completes
  have bus : (cpu.stepInstruction (Recorded.mk [] mem)).bus
      = (Manual.load v.core.regs.pc v.out).2.bus := congrArg (fun v => v.out.bus) completes.scene
  have after : (cpu.stepInstruction (Recorded.mk [] mem)).cpu.regs
      = Manual.setByte { v.core.regs with pc := v.core.regs.pc + 1 } r
        (Manual.load v.core.regs.pc v.out).1 := congrArg (fun v => v.core.regs) completes.scene
  rw [Manual.load_eq, regs, loaded] at bus after
  rw [Manual.setByte_eq] at after
  refine ⟨?_, after⟩
  simp only [Recorded.accesses, bus, fetchRecord, List.reverse_cons, List.reverse_reverse,
    List.append_assoc, List.singleton_append]

end Swallows

/-- The processor after a `HALT` that finds an interrupt pending which it may not serve. -/
def afterBuggyHalt : Cpu := ((Cpu.new .dmg true).step (openBusExcept 0x0100 0x76)).cpu

/-- Behind the `HALT` the accumulator is loaded. -/
def loadsBehindHalt : Memory := .set .zero 0x0101 0x3E

/-- Its opcode is read again as its operand. -/
theorem Reachable.swallowsAdvance_load :
    Reachable afterBuggyHalt ∧ afterBuggyHalt.haltBug = true
      ∧ SwallowsAdvance afterBuggyHalt loadsBehindHalt
        (afterBuggyHalt.stepInstruction (Recorded.mk [] loadsBehindHalt))
        (afterBuggyHalt.rewound.stepInstruction
          (Recorded.mk [] (loadsBehindHalt.doubled afterBuggyHalt.regs.pc)))
      ∧ (afterBuggyHalt.stepInstruction (Recorded.mk [] loadsBehindHalt)).bus.accesses
        = [.read 0xFFFF 0x00, .read 0xFF0F 0x00, .read 0x0101 0x3E, .read 0x0101 0x3E] := by
  have reachable : Reachable afterBuggyHalt := .step (.new .dmg true) _
  have boundary : afterBuggyHalt.atBoundary = true := by decide +kernel
  have armed : afterBuggyHalt.haltBug = true := by decide +kernel
  have awake : afterBuggyHalt.halted = false := by decide +kernel
  have disabled : (commitIme afterBuggyHalt).ime = false := by decide +kernel
  have pc : afterBuggyHalt.regs.pc = 0x0101 := by decide +kernel
  have model : afterBuggyHalt.model = .dmg := by decide +kernel
  have off (a : UInt16) (switch : afterBuggyHalt.speed.isSome = true) : a ≠ SpeedSwitch.address :=
    absurd (model.symm.trans (reachable.isSome_speed.1 switch)) nofun
  have idle : afterBuggyHalt.serves loadsBehindHalt = false := by
    rw [Cpu.serves, disabled, Bool.and_false, Bool.false_and]
  have opcode : loadsBehindHalt.get 0x0101 = 0x3E := Memory.get_set ..
  have fetched : opcodeFetched afterBuggyHalt (Recorded.mk [] loadsBehindHalt) = 0x3E := by
    rw [opcodeFetched_memory _ (off _), pc, opcode]
  have zero (a : UInt16) (other : 0x0101 ≠ a) : loadsBehindHalt.get a = 0 :=
    (Memory.get_set_of_ne _ _ other).trans (Vector.getElem_replicate _)
  have accesses : (afterBuggyHalt.stepInstruction (Recorded.mk [] loadsBehindHalt)).bus.accesses
      = [.read 0xFFFF 0x00, .read 0xFF0F 0x00, .read 0x0101 0x3E, .read 0x0101 0x3E] := by
    have loads : Instruction.ofOpcode (loadsBehindHalt.get afterBuggyHalt.regs.pc)
        = .loadImmediate (.reg .a) := by
      rw [pc, opcode]
      rfl
    rw [(reachable.sound.loads_opcode (Cpu.atBoundary_eq_true_iff.1 boundary) awake armed idle
      (off _) loads).1, Memory.polling_eq, zero _ (by decide), zero _ (by decide), pc, opcode]
    rfl
  have swallows := Reachable.swallowsAdvance reachable boundary armed idle
    (by rw [pc]; decide) (fun colour => absurd (model.symm.trans colour) nofun) (by
      rw [accesses, pc]
      decide)
  exact ⟨reachable, armed, swallows, accesses⟩

end Sm83
