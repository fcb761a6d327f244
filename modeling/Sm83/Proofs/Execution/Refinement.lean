import Sm83.Bus.Recorded
import Sm83.Proofs.Execution.Rows
import Sm83.Proofs.Run.Shown
import Sm83.Proofs.Run.Timing

/-!
# Cycle by cycle is in one go

The processor stops after every machine cycle, in the middle of an instruction and with operands on
the scratch stack.  Seen from one instruction boundary to the next this leaves no trace: the
registers, the bus and the record of events are those of the instruction executed in one go and by the
manual, after the interrupt registers were polled.

* `controlOpcodes`, `stateOpcodes` — what an opcode has to do with, read off the opcode map.
* `Nearing` — the invariant between calls: from the scene that is shown, with the events of all calls
  so far, moves lead to the scene at the end.
* `Reachable.stepInstruction_data`, `Reachable.stepInstruction_control` — the two halves of the
  instruction set.

The bus is any state that answers reads and takes writes.  One of those keeps a record, so that the
accesses are the same means that they are the same in the same order.
-/

namespace Sm83

/-! ## The opcode map -/

/-- Jumps, calls, returns, restarts, pushes and pops. -/
def controlOpcodes : List UInt8 :=
  [0x18, 0x20, 0x28, 0x30, 0x38,
    0xC3, 0xC2, 0xCA, 0xD2, 0xDA, 0xE9,
    0xCD, 0xC4, 0xCC, 0xD4, 0xDC,
    0xC9, 0xC0, 0xC8, 0xD0, 0xD8, 0xD9,
    0xC7, 0xCF, 0xD7, 0xDF, 0xE7, 0xEF, 0xF7, 0xFF,
    0xC5, 0xD5, 0xE5, 0xF5, 0xC1, 0xD1, 0xE1, 0xF1]

/-- `STOP`, `HALT`, `DI` and `EI`. -/
def stateOpcodes : List UInt8 := [0x10, 0x76, 0xF3, 0xFB]

theorem isControl_of_mem {opcode : UInt8} (h : opcode ∈ controlOpcodes) :
    (Instruction.ofOpcode opcode).isControl = true :=
  List.all_eq_true.1 (by decide : controlOpcodes.all fun b => (Instruction.ofOpcode b).isControl)
    opcode h

/-- All other opcodes move and compute data, the prefix and those without a meaning among them. -/
theorem isData_of_not_mem {opcode : UInt8} (state : opcode ∉ stateOpcodes)
    (control : opcode ∉ controlOpcodes) : (Instruction.ofOpcode opcode).isData = true :=
  forall_byte (P := fun b => b ∉ stateOpcodes → b ∉ controlOpcodes →
    (Instruction.ofOpcode b).isData = true) (by decide +kernel) opcode state control

/-! ## Towards the end of an instruction -/

section Calls

open Machine

variable {β : Type} [Bus β]

/-- At a moment inside a call: after the events before it, moves lead to the scene `w`. -/
structure Approaching (model : Model) (before : List Event) (w : Scene β) (p : Position)
    (m : Machine β) : Prop where
  micro : p.OnMicrocode
  balanced : p.Balanced m.cpu.scratch.depth
  ends : Ends p (m.scene before) w
  model : m.cpu.model = model

/-- Where the instruction is over, the scene is shown. -/
def Arrived (model : Model) (before : List Event) (w : Scene β) (m : Machine β) : Prop :=
  m.scene before = w ∧ m.cpu.model = model

variable {model : Model} {before : List Event} {w : Scene β}

/-- A move is a move towards the end: there is only one that can be made. -/
theorem Approaching.advance {p : Position} {m : Machine β} (h : Approaching model before w p m) :
    Leads (Next (Approaching model before w) (Arrived model before w)) (fun _ _ => False)
      (p.advance m) := by
  have depth : m.cpu.scratch.depth = (m.scene before).stack.length := Machine.depth_of_scene rfl
  obtain ⟨r, v, acts, le, balanced⟩ := Position.act_of_balanced (depth ▸ h.balanced)
  obtain ⟨m', e, shown, kept⟩ :=
    Position.advance_performs acts (Nat.le_trans le (by decide)) before m rfl
  have model : m'.cpu.model = model := (congrArg Frame.model kept).trans h.model
  rw [e]
  cases h.ends with
  | stop acts' =>
    cases acts.symm.trans acts'
    exact ⟨shown, model⟩
  | @move _ q _ u _ acts' ends =>
    cases acts.symm.trans acts'
    refine ⟨h.micro.successor (Position.successor_of_advance e), ?_, shown ▸ ends, model⟩
    rw [Machine.depth_of_scene shown]
    exact balanced

/-- Between calls: the instruction is over and shows the scene `w`, or is on its way there. -/
inductive Nearing (model : Model) (w : Scene β) (o : Outcome β) : Prop
  | finished (boundary : o.cpu.suspended = none)
    (arrived : Arrived model [] w ⟨o.cpu, o.bus, o.events⟩)
  | going {s : Suspension} (under : o.cpu.suspended = some s)
    (approaching : Approaching model [] w s.position ⟨o.cpu, o.bus, o.events⟩)

/-- The record of a call is put behind that of the calls before it. -/
theorem nearing_of_left {cpu : Cpu} {bus : β}
    (h : Leads (fun _ => Left (fun p m => Approaching model before w p m ∧ p.waiting = true)
      (Arrived model before w)) (fun _ _ => False) (cycle ⟨cpu, bus, []⟩)) :
    Nearing model w { cpu.step bus with events := before ++ (cpu.step bus).events } := by
  refine Cpu.step_of_left (Φ := fun o => Nearing model w { o with events := before ++ o.events }) h
    ?_ ?_ fun _ _ => False.elim
  · rintro s m ⟨approaching, -⟩
    exact .going rfl
      ⟨approaching.micro, approaching.balanced, approaching.ends, approaching.model⟩
  · exact fun m arrived => .finished rfl arrived

/-- A call leads nearer to the end. -/
theorem Nearing.next {o : Outcome β} (h : Nearing model w o) (faultless : o.fault = none)
    (inside : o.cpu.atBoundary = false) : Nearing model w o.next := by
  rw [Outcome.next_of_faultless faultless]
  cases h with
  | finished boundary =>
    rw [Cpu.atBoundary, boundary] at inside
    cases inside
  | @going s under approaching =>
    refine nearing_of_left (cycle_leads (P := fun _ => Approaching model o.events w)
      (fun _ _ _ h _ => h.advance) (fun _ _ h _ => h.advance) (fun _ _ h => h.micro) ?_)
    rw [enter_of_suspended under]
    refine ⟨approaching.micro, approaching.balanced, ?_, approaching.model⟩
    have shown : (Machine.begun ⟨o.cpu, o.bus, []⟩).scene o.events
        = (⟨o.cpu, o.bus, o.events⟩ : Machine β).scene [] := by
      simp only [Machine.scene, Machine.begun, List.append_nil, List.nil_append]
      rfl
    rw [shown]
    exact approaching.ends

/-! ## From boundary to boundary -/

/-- What `k` calls lead to. -/
def Outcome.after (o : Outcome β) : (k : Nat) → Outcome β
  | 0 => o
  | k + 1 => (o.after k).next

/-- The bus of each call is the one that the call before it left. -/
def Cpu.buses (cpu : Cpu) (bus : β) (k : Nat) : β := ((Outcome.start cpu bus).after k).bus

section Runs

variable {cpu : Cpu} {bus : β} {n : Nat}

/-- Calls without a fault, each on the bus of the one before, are calls in a row. -/
theorem TakesCalls.after_cpu (h : TakesCalls n cpu (cpu.buses bus)) {k : Nat} (hk : k ≤ n) :
    ((Outcome.start cpu bus).after k).fault = none
      ∧ ((Outcome.start cpu bus).after k).cpu = cpu.after (cpu.buses bus) k := by
  induction k with
  | zero => exact ⟨rfl, rfl⟩
  | succ k ih =>
    obtain ⟨faultless, same⟩ := ih (Nat.le_of_succ_le hk)
    have fault := h.faultless k hk
    rw [Outcome.after, Outcome.next_of_faultless faultless, Cpu.after, ← same]
    rw [← same] at fault
    exact ⟨fault, rfl⟩

/-- Each hands on the bus that it leaves. -/
theorem TakesCalls.buses_succ (h : TakesCalls n cpu (cpu.buses bus)) {k : Nat} (hk : k < n) :
    cpu.buses bus (k + 1) = ((cpu.after (cpu.buses bus) k).step (cpu.buses bus k)).bus := by
  obtain ⟨faultless, same⟩ := h.after_cpu (Nat.le_of_lt hk)
  rw [Cpu.buses, Outcome.after, Outcome.next_of_faultless faultless, same]
  rfl

/-- Going on to the boundary makes the calls that are to be made, if it may make so many. -/
theorem TakesCalls.toBoundary_eq_after (h : TakesCalls n cpu (cpu.buses bus)) {limit j : Nat}
    (pos : 0 < j) (le : j ≤ n) (enough : n ≤ j + limit) :
    ((Outcome.start cpu bus).after j).toBoundary limit = (Outcome.start cpu bus).after n := by
  induction limit generalizing j with
  | zero =>
    obtain rfl : j = n := Nat.le_antisymm le enough
    rfl
  | succ limit ih =>
    obtain ⟨faultless, same⟩ := h.after_cpu le
    rw [Outcome.toBoundary, faultless, same]
    rcases Nat.eq_or_lt_of_le le with rfl | lt
    · rw [h.boundary]
      rfl
    · rw [h.inside j pos lt]
      exact ih (Nat.succ_pos j) lt (by omega)

/-- What is on its way after the first call has arrived after the last. -/
theorem TakesCalls.arrived {model : Model} {w : Scene β} (h : TakesCalls n cpu (cpu.buses bus))
    (pos : 0 < n) (first : Nearing model w (cpu.step bus)) :
    Nearing model w ((Outcome.start cpu bus).after n) := by
  have near (k : Nat) (hk : k < n) : Nearing model w ((Outcome.start cpu bus).after (k + 1)) := by
    induction k with
    | zero => exact first
    | succ k ih =>
      obtain ⟨faultless, same⟩ := h.after_cpu (Nat.le_of_lt hk)
      exact (ih (Nat.lt_of_succ_lt hk)).next faultless
        (same ▸ h.inside (k + 1) (Nat.succ_pos k) hk)
  obtain ⟨k, rfl⟩ := Nat.exists_eq_succ_of_ne_zero (Nat.ne_of_gt pos)
  exact near k (Nat.lt_succ_self k)

/-! ## In one go -/

/-- What an instruction starts from: the enabling of interrupts by an `EI` has moved on. -/
def Cpu.coreAtFetch (cpu : Cpu) : Core :=
  { cpu.core with
    ime := cpu.ime || cpu.imeDelay
    imePending := cpu.imePending && cpu.imeDelay
    imeDelay := cpu.imePending && !cpu.imeDelay }

theorem commitIme_core (cpu : Cpu) : (commitIme cpu).core = cpu.coreAtFetch := by
  rw [commitIme_eq]
  rfl

/-- Between two boundaries an instruction was executed. -/
structure Executed (cpu : Cpu) (bus : β) (o : Outcome β) : Prop where
  faultless : o.fault = none
  boundary : o.cpu.atBoundary = true
  empty : o.cpu.scratch.toList = []
  model : o.cpu.model = cpu.model
  /-- Registers, interrupt state, bus and events are those of the instruction in one go, after both
  interrupt registers were read. -/
  result : (o.cpu.core, Outside.mk o.cpu.speed o.bus o.events)
    = executeNext cpu.coreAtFetch ⟨cpu.speed, (Bus.read 0xFF0F (Bus.read 0xFFFF bus).2).2, []⟩

/-- The first call, which fetches the opcode, leaves the rest of its instruction. -/
theorem nearing_of_fetch {w : Scene β} (boundary : cpu.suspended = none)
    (empty : cpu.scratch.toList = []) (awake : cpu.halted = false) (idle : cpu.serves bus = false)
    (ends : Ends (Instruction.ofOpcode (opcodeFetched cpu bus)).microprogram.position
      (sceneFetched cpu bus) w) :
    Nearing cpu.model w (cpu.step bus) := by
  have led : Leads (fun _ => Left (fun p m => Approaching cpu.model [] w p m ∧ p.waiting = true)
      (Arrived cpu.model [] w)) (fun _ _ => False) (cycle ⟨cpu, bus, []⟩) := by
    refine fetch_leads boundary empty awake idle fun m shown kept => ?_
    have depth : m.cpu.scratch.depth = 0 := Machine.depth_of_scene shown
    have model : cpu.choosing.model = cpu.model := by rw [Cpu.choosing, commitIme_eq]
    refine settle_leads (fun p m h _ => h.advance) ?_
    exact ⟨.of_isRow (.instruction _), depth ▸ balanced_instruction _, shown ▸ ends,
      (congrArg Frame.model kept).trans model⟩
  exact nearing_of_left led

/-- From a boundary the instruction that is fetched is brought to its end: in the published number of
calls, and with its last call as it should end. -/
structure Completes (cpu : Cpu) (bus : β) (w : Scene β) (o : Outcome β) : Prop
    extends EndsAt none w o where
  calls : TakesCalls (cyclesFetched cpu (cpu.buses bus)) cpu (cpu.buses bus)
  reached : o = (Outcome.start cpu bus).after (cyclesFetched cpu (cpu.buses bus))
  model : o.cpu.model = cpu.model

/-- Calls lead where moves lead, whether or not the HALT bug was armed. -/
theorem Cpu.Sound.completes (h : cpu.Sound) {w : Scene β} (boundary : cpu.suspended = none)
    (awake : cpu.halted = false) (idle : cpu.serves bus = false)
    (ends : Ends (Instruction.ofOpcode (opcodeFetched cpu bus)).microprogram.position
      (sceneFetched cpu bus) w) :
    Completes cpu bus w (cpu.stepInstruction bus) := by
  have empty : cpu.scratch.toList = [] := h.toList_eq_nil boundary
  have calls : TakesCalls (cyclesFetched cpu (cpu.buses bus)) cpu (cpu.buses bus) :=
    h.takesCyclesFetched boundary awake idle
  obtain ⟨pos, le⟩ : 1 ≤ cyclesFetched cpu (cpu.buses bus) ∧ _ := publishedCycles_bounds _ _ _
  have reached : cpu.stepInstruction bus
      = (Outcome.start cpu bus).after (cyclesFetched cpu (cpu.buses bus)) :=
    calls.toBoundary_eq_after (j := 1) Nat.one_pos pos (Nat.le_succ_of_le le)
  have near := calls.arrived pos (nearing_of_fetch boundary empty awake idle ends)
  obtain ⟨faultless, same⟩ := calls.after_cpu (Nat.le_refl _)
  have done := calls.boundary
  rw [← same] at done
  rw [← reached] at near faultless done
  cases near with
  | going under =>
    rw [Cpu.atBoundary, under] at done
    cases done
  | finished ended arrived =>
    exact ⟨⟨faultless, ended, arrived.1⟩, calls, reached, arrived.2⟩

/-- Without the HALT bug the program counter is behind the opcode when the instruction starts. -/
theorem sceneFetched_core_of_clear (bus : β) (clear : cpu.haltBug = false) :
    (sceneFetched cpu bus).core = { cpu.coreAtFetch with
      regs := { cpu.regs with pc := cpu.regs.pc + 1 }
      opcodeAddress := cpu.regs.pc } := by
  simp only [sceneFetched_core, commitIme_eq, Cpu.coreAtFetch, Cpu.core, clear, Bool.false_eq_true,
    if_false]

/-- So an opcode is fetched as it is in one go. -/
theorem executeNext_eq (clear : cpu.haltBug = false) :
    executeNext cpu.coreAtFetch ⟨cpu.speed, (Bus.read 0xFF0F (Bus.read 0xFFFF bus).2).2, []⟩
      = (Instruction.ofOpcode (opcodeFetched cpu bus)).execute (sceneFetched cpu bus).core
        (sceneFetched cpu bus).out := by
  simp only [sceneFetched_core_of_clear bus clear, executeNext, Core.nextByte, Manual.load_eq,
    Manual.instruction_eq]
  rfl

/-- An instruction whose microcode does what it means is executed. -/
theorem Cpu.Sound.executed (h : cpu.Sound) (boundary : cpu.atBoundary = true)
    (awake : cpu.halted = false) (clear : cpu.haltBug = false) (idle : cpu.serves bus = false)
    (ends : ∀ (c : Core) (o : Outside β), c.haltBug = false →
      Ends (Instruction.ofOpcode (opcodeFetched cpu bus)).microprogram.position ⟨[], c, o⟩
        (bare ((Instruction.ofOpcode (opcodeFetched cpu bus)).execute c o))) :
    Executed cpu bus (cpu.stepInstruction bus) := by
  have boundary : cpu.suspended = none := Option.isNone_iff_eq_none.1 boundary
  have still : (sceneFetched cpu bus).core.haltBug = false := by
    rw [sceneFetched_core]
  have completes := h.completes boundary awake idle
    (ends (sceneFetched cpu bus).core (sceneFetched cpu bus).out still)
  rw [← executeNext_eq clear] at completes
  exact ⟨completes.faultless, Option.isNone_iff_eq_none.2 completes.suspended,
    congrArg Scene.stack completes.scene, completes.model,
    Prod.ext (congrArg Scene.core completes.scene) (congrArg Scene.out completes.scene)⟩

theorem Reachable.executed (h : Reachable cpu) (boundary : cpu.atBoundary = true)
    (awake : cpu.halted = false) (clear : cpu.haltBug = false) (idle : cpu.serves bus = false)
    (ends : ∀ (c : Core) (o : Outside β), c.haltBug = false →
      Ends (Instruction.ofOpcode (opcodeFetched cpu bus)).microprogram.position ⟨[], c, o⟩
        (bare ((Instruction.ofOpcode (opcodeFetched cpu bus)).execute c o))) :
    Executed cpu bus (cpu.stepInstruction bus) := h.sound.executed boundary awake clear idle ends

/-- Loads and arithmetic: stepping to the next boundary executes the instruction in one go. -/
theorem Reachable.stepInstruction_data (h : Reachable cpu) (boundary : cpu.atBoundary = true)
    (awake : cpu.halted = false) (clear : cpu.haltBug = false) (idle : cpu.serves bus = false)
    (state : opcodeFetched cpu bus ∉ stateOpcodes)
    (control : opcodeFetched cpu bus ∉ controlOpcodes) :
    Executed cpu bus (cpu.stepInstruction bus) :=
  h.executed boundary awake clear idle fun _ o still =>
    ends_of_isData (isData_of_not_mem state control) o still

end Runs

end Calls

/-! ## Instructions right after the start -/

/-- An instruction with which the processor starts, and what it comes to. -/
structure Sample where
  code : List UInt8
  regs : Registers
  /-- The accesses, after those of the interrupt registers and the code. -/
  accesses : List Bus.Access

namespace Sample

/-- The code stands at `0x0100`, and above the stack pointer the word `0x123F`.  No interrupt is
enabled, which is read first where the upper byte of that word will be. -/
def bus (x : Sample) : Bus.Recorded (Bus.Scripted (Bus.Blocked Memory)) :=
  ⟨[], [(0xFFFF, 0x00), (0xFFFE, 0x3F), (0xFFFF, 0x12)] ++ [0x0100, 0x0101, 0x0102].zip x.code,
    openBus⟩

/-- The bus afterwards, and the registers, are as they should be. -/
structure Runs (x : Sample) : Prop where
  executed : Executed (.new .dmg true) x.bus ((Cpu.new .dmg true).stepInstruction x.bus)
  regs : ((Cpu.new .dmg true).stepInstruction x.bus).cpu.regs = x.regs
  accesses : ((Cpu.new .dmg true).stepInstruction x.bus).bus.accesses
    = [.read 0xFFFF 0x00, .read 0xFF0F 0xFF]
      ++ ([0x0100, 0x0101, 0x0102].zip x.code).map (fun read => .read read.1 read.2) ++ x.accesses

/-- The registers of the processor when it starts. -/
def start : Registers := Model.bootRegisters .dmg

/-- `LD (C0FF),SP`, `ADD A,(HL)`, `DEC (HL)`, `LD HL,SP-2` and `SWAP A`. -/
def data : List Sample :=
  [⟨[0x08, 0xFF, 0xC0], { start with pc := 0x0103 }, [.write 0xC0FF 0xFE, .write 0xC100 0xFF]⟩,
    ⟨[0x86], { start with pc := 0x0101, a := 0x00, f := ⟨true, false, true, true⟩ },
      [.read 0x014D 0xFF]⟩,
    ⟨[0x35], { start with pc := 0x0101, f := ⟨false, true, false, true⟩ },
      [.read 0x014D 0xFF, .write 0x014D 0xFE]⟩,
    ⟨[0xF8, 0xFE],
      { start with pc := 0x0102, h := 0xFF, l := 0xFC, f := ⟨false, false, true, true⟩ }, []⟩,
    ⟨[0xCB, 0x37], { start with pc := 0x0102, a := 0x10, f := ⟨false, false, false, false⟩ }, []⟩]

/-- `JR Z,-4`, which is taken, `JR NC,-4`, which is not, `CALL 1234`, `RET`, `PUSH AF`, `POP AF`,
`RETI` and `RST 18`. -/
def control : List Sample :=
  [⟨[0x28, 0xFC], { start with pc := 0x00FE }, []⟩,
    ⟨[0x30, 0xFC], { start with pc := 0x0102 }, []⟩,
    ⟨[0xCD, 0x34, 0x12], { start with pc := 0x1234, sp := 0xFFFC },
      [.write 0xFFFD 0x01, .write 0xFFFC 0x03]⟩,
    ⟨[0xC9], { start with pc := 0x123F, sp := 0x0000 }, [.read 0xFFFE 0x3F, .read 0xFFFF 0x12]⟩,
    ⟨[0xF5], { start with pc := 0x0101, sp := 0xFFFC }, [.write 0xFFFD 0x01, .write 0xFFFC 0xB0]⟩,
    ⟨[0xF1], { start with pc := 0x0101, sp := 0x0000, a := 0x12, f := ⟨false, false, true, true⟩ },
      [.read 0xFFFE 0x3F, .read 0xFFFF 0x12]⟩,
    ⟨[0xD9], { start with pc := 0x123F, sp := 0x0000 }, [.read 0xFFFE 0x3F, .read 0xFFFF 0x12]⟩,
    ⟨[0xDF], { start with pc := 0x0018, sp := 0xFFFC }, [.write 0xFFFD 0x01, .write 0xFFFC 0x01]⟩]

/-- By the manual they come to this. -/
theorem executeNext_eq : ∀ x ∈ data ++ control,
    (executeNext (Cpu.new .dmg true).coreAtFetch
        ⟨none, (Bus.read 0xFF0F (Bus.read 0xFFFF x.bus).2).2, []⟩).1.regs = x.regs
      ∧ (executeNext (Cpu.new .dmg true).coreAtFetch
          ⟨none, (Bus.read 0xFF0F (Bus.read 0xFFFF x.bus).2).2, []⟩).2.bus.accesses
        = [.read 0xFFFF 0x00, .read 0xFF0F 0xFF]
          ++ ([0x0100, 0x0101, 0x0102].zip x.code).map (fun read => .read read.1 read.2)
          ++ x.accesses := by decide +kernel

theorem runs {x : Sample} (member : x ∈ data ++ control)
    (executed : Executed (.new .dmg true) x.bus ((Cpu.new .dmg true).stepInstruction x.bus)) :
    x.Runs := by
  obtain ⟨regs, accesses⟩ := executeNext_eq x member
  refine ⟨executed, ?_, ?_⟩
  · rw [← regs]
    exact congrArg (fun r => r.1.regs) executed.result
  · rw [← accesses]
    exact congrArg (fun r => r.2.bus.accesses) executed.result

end Sample

/-- Loads and arithmetic among them. -/
theorem Reachable.stepInstruction_data_samples :
    Reachable (.new .dmg true) ∧ ∀ x ∈ Sample.data, x.Runs := by
  have reachable : Reachable (.new .dmg true) := .new .dmg true
  refine ⟨reachable, fun x member => ?_⟩
  obtain ⟨idle, state, control⟩ : (Cpu.new .dmg true).serves x.bus = false
      ∧ opcodeFetched (.new .dmg true) x.bus ∉ stateOpcodes
      ∧ opcodeFetched (.new .dmg true) x.bus ∉ controlOpcodes :=
    (by decide +kernel : ∀ x ∈ Sample.data, (Cpu.new .dmg true).serves x.bus = false
      ∧ opcodeFetched (.new .dmg true) x.bus ∉ stateOpcodes
      ∧ opcodeFetched (.new .dmg true) x.bus ∉ controlOpcodes) x member
  exact Sample.runs (List.mem_append_left _ member)
    (reachable.stepInstruction_data rfl rfl rfl idle state control)

section Runs

variable {β : Type} [Bus β] {cpu : Cpu} {bus : β}

/-- The opcodes of `POP BC`, `POP DE`, `POP HL` and `POP AF`. -/
def popOpcodes : List UInt8 := [0xC1, 0xD1, 0xE1, 0xF1]

theorem mem_popOpcodes {opcode : UInt8} {reg : Reg16} (h : Instruction.ofOpcode opcode = .pop reg) :
    opcode ∈ popOpcodes := by
  have table : ∀ b : UInt8, ∀ reg ∈ [Reg16.af, .bc, .de, .hl, .sp, .pc],
      Instruction.ofOpcode b = .pop reg → b ∈ popOpcodes := forall_byte (by decide +kernel)
  exact table opcode reg (by cases reg <;> decide) h

/-- Control flow and the machine stack: stepping to the next boundary executes the instruction in one
go.  All but the pops change no registers but the stack pointer and the program counter. -/
theorem Reachable.stepInstruction_control (h : Reachable cpu) (boundary : cpu.atBoundary = true)
    (awake : cpu.halted = false) (clear : cpu.haltBug = false) (idle : cpu.serves bus = false)
    (control : opcodeFetched cpu bus ∈ controlOpcodes) :
    Executed cpu bus (cpu.stepInstruction bus)
      ∧ (opcodeFetched cpu bus ∉ popOpcodes →
        ∃ sp pc, (cpu.stepInstruction bus).cpu.regs = { cpu.regs with sp := sp, pc := pc }) := by
  have isControl := isControl_of_mem control
  have executed : Executed cpu bus (cpu.stepInstruction bus) :=
    h.executed boundary awake clear idle fun _ o still => ends_of_isControl isControl o still
  refine ⟨executed, fun keeps => ?_⟩
  obtain ⟨sp, pc, regs⟩ := Instruction.execute_regs_of_isControl isControl
    (fun _ pops => keeps (mem_popOpcodes pops)) (sceneFetched cpu bus).core (sceneFetched cpu bus).out
  rw [← executeNext_eq clear, ← executed.result, sceneFetched_core_of_clear bus clear] at regs
  exact ⟨sp, pc, regs⟩

end Runs

/-- Control flow and the machine stack among them. -/
theorem Reachable.stepInstruction_control_samples :
    Reachable (.new .dmg true) ∧ ∀ x ∈ Sample.control, x.Runs := by
  have reachable : Reachable (.new .dmg true) := .new .dmg true
  refine ⟨reachable, fun x member => ?_⟩
  obtain ⟨idle, control⟩ : (Cpu.new .dmg true).serves x.bus = false
      ∧ opcodeFetched (.new .dmg true) x.bus ∈ controlOpcodes :=
    (by decide +kernel : ∀ x ∈ Sample.control, (Cpu.new .dmg true).serves x.bus = false
      ∧ opcodeFetched (.new .dmg true) x.bus ∈ controlOpcodes) x member
  exact Sample.runs (List.mem_append_right _ member)
    (reachable.stepInstruction_control rfl rfl rfl idle control).1

end Sm83
