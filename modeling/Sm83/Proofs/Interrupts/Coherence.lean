import Sm83.Proofs.Interrupts.HaltBug
import Sm83.Proofs.Interrupts.Halting
import Sm83.Proofs.Microstep.Gated

/-!
# The interrupt state is coherent

Five bits make up the interrupt state.  They are set and cleared by different steps, some of them in the
middle of an instruction, and hardly any combination is ruled out where they are stored.  But most
combinations never come about, at no point of any run: not between two instructions, not inside one,
and not after a call that failed because the interrupt it was to serve had gone.

* `Course` — runs from a reset on, with calls that fail among them.
* `Coherent` — what the bits say of each other and of the past.
* `Cpu.Keeps` — the gate is in a set of gates and stays there to the end of what is under way.  This is
  what a call can be asked for in the middle of an instruction.
* `Ordered` — the invariant.  `Ordered.step`: every kind of call keeps it, and each needs another part of
  what the others left.
* `Course.coherent` — so the bits are coherent after every call.
-/

namespace Sm83

open Machine
open Position (Keeping)

/-! ## Pasts -/

/-- The opcode of the instruction that an event begins. -/
def Event.opcode? : Event → Option UInt8
  | .decoded .base opcode _ => some opcode
  | _ => none

/-- The opcode of the last instruction of a past. -/
def lastOpcode? (past : List Event) : Option UInt8 := (past.filterMap Event.opcode?).getLast?

/-- The last event of a past served an interrupt.  So it is from the first call of a dispatch on until
the next instruction begins. -/
def LastDispatched (past : List Event) : Prop := past.getLast?.any Event.isDispatch = true

/-- Runs of calls from a reset on, each on whatever bus there is, with the milestones since that reset.
A call may fail, and the host may set the speed switch in between. -/
inductive Course : List Event → Cpu → Prop
  | new (model : Model) (skipBoot : Bool) : Course [] (.new model skipBoot)
  | reset (cpu : Cpu) (skipBoot : Bool) : Course [] (cpu.reset skipBoot)
  | setSpeed {past : List Event} {cpu : Cpu} (h : Course past cpu) (speed : SpeedSwitch) :
    Course past { cpu with speed := cpu.speed.map fun _ => speed }
  | call {past : List Event} {cpu : Cpu} (h : Course past cpu) {β : Type} [Bus β] (bus : β) :
    Course (past ++ milestones (cpu.step bus).events) (cpu.step bus).cpu

/-- What the interrupt state says of itself and of the past. -/
structure Coherent (past : List Event) (cpu : Cpu) : Prop where
  halted : cpu.halted = true →
    cpu.atBoundary = true ∧ cpu.scratch.isEmpty = true ∧ cpu.haltBug = false
  /-- The HALT bug is armed only directly after a `HALT`. -/
  armed : cpu.haltBug = true → cpu.atBoundary = true ∧ cpu.halted = false ∧ cpu.ime = false
    ∧ lastOpcode? past = some 0x76
  /-- Enabling is pending with interrupts disabled only directly after an `EI`. -/
  pending : cpu.imePending = true → cpu.ime = false → lastOpcode? past = some 0xFB
  dispatch : LastDispatched past → cpu.ime = false ∧ cpu.imePending = false ∧ cpu.imeDelay = false
    ∧ cpu.haltBug = false
  /-- The low nibble of `F` is clear. -/
  flags : (Word.low (cpu.regs.word .af)).toNat % 16 = 0

theorem lastOpcode?_append_singleton (past : List Event) (opcode : UInt8) (a : UInt16) :
    lastOpcode? (past ++ [.decoded .base opcode a]) = some opcode := by
  rw [lastOpcode?, List.filterMap_append]
  exact List.getLast?_concat

theorem lastDispatched_append_singleton (past : List Event) (e : Event) :
    LastDispatched (past ++ [e]) ↔ e.isDispatch = true := by
  rw [LastDispatched, List.getLast?_concat]
  rfl

/-! ## The gate between calls -/

/-- The gate is in `P`, and what is under way keeps it there. -/
structure Cpu.Keeps (P : Gate → Prop) (cpu : Cpu) : Prop where
  gate : P cpu.gate
  steps : ∀ s, cpu.suspended = some s → s.position.Keeps P

/-- At a boundary nothing is under way. -/
theorem Cpu.Keeps.of_boundary {P : Gate → Prop} {cpu : Cpu} (boundary : cpu.suspended = none)
    (gate : P cpu.gate) : cpu.Keeps P :=
  ⟨gate, fun s under => absurd (under.symm.trans boundary) (Option.some_ne_none s)⟩

section Calls

variable {β : Type} [Bus β] {P : Gate → Prop} {cpu : Cpu} {bus : β}

theorem Keeping.steady (P : Gate → Prop) : Steady (β := β) (Keeping P) :=
  fun p _ _ _ h _ acts => (h.steps p rfl).act acts h.gate

omit [Bus β] in
theorem Arrives.keeps {o : Outcome β} (h : Arrives (Keeping P) cpu o) : o.cpu.Keeps P := by
  refine ⟨h.shown.gate, fun s under => h.shown.steps _ ?_⟩
  rw [under, Option.map_some]

/-- A call inside an instruction keeps the gate where the instruction keeps it. -/
theorem Cpu.Keeps.inside (h : cpu.Keeps P) (sound : cpu.Sound) {s : Suspension}
    (under : cpu.suspended = some s) (bus : β) : (cpu.step bus).cpu.Keeps P :=
  (sound.inside_keeps under (Keeping.steady P) fun _ _ acts =>
    (h.steps s under).act acts h.gate).keeps

/-- Serving an interrupt closes the gate. -/
theorem Cpu.Sound.keeps_serving (sound : cpu.Sound) (boundary : cpu.suspended = none)
    (serves : cpu.serves bus = true) {line : InterruptSet}
    (present : (Bus.poll (Bus.poll bus).2).1.first? = some line) (closed : P .closed) :
    (cpu.step bus).cpu.Keeps P :=
  (sound.serving_keeps boundary serves present (Keeping.steady P) fun _ _ acts =>
    (keeps_interrupt P).act acts closed).keeps

/-- An instruction that is fetched starts with the gate that the boundary leaves. -/
theorem Cpu.Sound.keeps_fetching (sound : cpu.Sound) (boundary : cpu.suspended = none)
    (awake : cpu.halted = false) (idle : cpu.serves bus = false)
    (keeps : (Instruction.ofOpcode (opcodeFetched cpu bus)).microprogram.position.Keeps P)
    (gate : P cpu.gate.commit) : (cpu.step bus).cpu.Keeps P := by
  have starts : (sceneFetched cpu bus).core.gate = cpu.gate.commit := by
    rw [sceneFetched_core, commitIme_eq]
    rfl
  refine (sound.fetching_keeps boundary awake idle (Keeping.steady P) ⟨starts ▸ gate, ?_⟩).keeps
  rintro p ⟨⟩
  exact keeps

/-! ## The invariant -/

/-- What every call finds and leaves. -/
structure Ordered (past : List Event) (cpu : Cpu) : Prop where
  sound : cpu.Sound
  resting : cpu.Resting
  armed : cpu.haltBug = true →
    cpu.halted = false ∧ cpu.ime = false ∧ lastOpcode? past = some 0x76
  /-- Directly after an `EI` anything may be pending. -/
  pending : cpu.suspended = none ∧ lastOpcode? past = some 0xFB ∨ cpu.Keeps Gate.Calm
  dispatch : LastDispatched past → cpu.Keeps (· = .closed) ∧ cpu.haltBug = false

/-- After a reset there is nothing to be kept. -/
theorem Ordered.ofScratch (model : Model) (skipBoot : Bool) {scratch : ScratchStack}
    (empty : scratch.depth = 0) : Ordered [] (.ofScratch model skipBoot scratch) where
  sound := .of_boundary rfl (by rw [ScratchStack.isEmpty, Cpu.ofScratch, empty]; rfl)
  resting := .of_neither rfl rfl
  armed := fun armed => absurd armed Bool.false_ne_true
  pending := .inr (.of_boundary rfl Gate.calm_closed)
  dispatch := fun _ => ⟨.of_boundary rfl rfl, rfl⟩

variable {past : List Event}

omit [Bus β] in
/-- The speed has nothing to do with it. -/
theorem Ordered.setSpeed (h : Ordered past cpu) (speed : Option SpeedSwitch) :
    Ordered past { cpu with speed := speed } where
  sound := ⟨h.sound.empty, h.sound.within⟩
  resting := ⟨h.resting.halted, h.resting.armed⟩
  armed := h.armed
  pending := h.pending.imp id fun calm => ⟨calm.gate, calm.steps⟩
  dispatch := fun last => by
    obtain ⟨closed, clear⟩ := h.dispatch last
    exact ⟨⟨closed.gate, closed.steps⟩, clear⟩

/-- Inside an instruction no bit is set that was not, but for what the instruction may do. -/
theorem Ordered.inside (h : Ordered past cpu) {s : Suspension} (under : cpu.suspended = some s) :
    Ordered (past ++ milestones (cpu.step bus).events) (cpu.step bus).cpu := by
  have passed : milestones (cpu.step bus).events = [] :=
    congrArg Upshot.milestones (h.sound.step_inside under bus).2
  have spared := (h.sound.spares_inside under bus).1
  -- what is armed or asked for was so at a boundary, and here there is none
  have nowhere (boundary : cpu.suspended = none) : False :=
    Option.some_ne_none s (under.symm.trans boundary)
  rw [passed, List.append_nil]
  refine ⟨h.sound.step bus, h.resting.step h.sound bus, fun armed => ?_, ?_, fun last => ?_⟩
  · exact (nowhere (h.resting.armed (spared armed))).elim
  · rcases h.pending with ⟨boundary, -⟩ | calm
    · exact (nowhere boundary).elim
    · exact .inr (calm.inside h.sound under bus)
  · obtain ⟨closed, clear⟩ := h.dispatch last
    refine ⟨closed.inside h.sound under bus, Bool.eq_false_iff.2 fun armed => ?_⟩
    exact Bool.false_ne_true (clear.symm.trans (spared armed))

/-- A halted processor hands over its gate, which leaves it calm. -/
theorem Ordered.idle (h : Ordered past cpu) (boundary : cpu.suspended = none)
    (halted : cpu.halted = true) :
    Ordered (past ++ milestones (cpu.step bus).events) (cpu.step bus).cpu := by
  have came := (Cpu.step_idling boundary halted bus).2
  have passed : milestones (cpu.step bus).events = [] := congrArg Upshot.milestones came
  have still : (cpu.step bus).cpu.suspended = none := by rw [Cpu.step_of_idles boundary halted]
  have clear : (cpu.step bus).cpu.haltBug = false := by
    rw [Cpu.step_of_idles boundary halted, Cpu.choosing, commitIme_eq]
    exact (h.resting.halted halted).2
  have gate : (cpu.step bus).cpu.gate = cpu.gate.commit :=
    (Cpu.due_of_boundary still).symm.trans (congrArg Upshot.gate came)
  rw [passed, List.append_nil]
  refine ⟨h.sound.step bus, h.resting.step h.sound bus, fun armed => ?_,
    .inr (.of_boundary still ?_), fun last => ⟨.of_boundary still ?_, clear⟩⟩
  · exact absurd (armed.symm.trans clear) Bool.true_eq_false.mp
  · rw [gate]
    exact cpu.gate.commit_calm
  · rw [gate, (h.dispatch last).1.gate]
    rfl

/-- Serving an interrupt clears everything. -/
theorem Ordered.serve (h : Ordered past cpu) (boundary : cpu.suspended = none)
    (serves : cpu.serves bus = true) {line : InterruptSet}
    (present : (Bus.poll (Bus.poll bus).2).1.first? = some line) :
    Ordered (past ++ milestones (cpu.step bus).events) (cpu.step bus).cpu := by
  have clear := (h.sound.spares_serving boundary serves present).1
  exact ⟨h.sound.step bus, h.resting.step h.sound bus,
    fun armed => absurd (armed.symm.trans clear) Bool.true_eq_false.mp,
    .inr (h.sound.keeps_serving boundary serves present Gate.calm_closed),
    fun _ => ⟨h.sound.keeps_serving boundary serves present rfl, clear⟩⟩

/-- And so does finding the interrupt gone. -/
theorem Ordered.vanish (h : Ordered past cpu) (boundary : cpu.suspended = none)
    (serves : cpu.serves bus = true) (gone : (Bus.poll (Bus.poll bus).2).1.isEmpty = true) :
    Ordered (past ++ milestones (cpu.step bus).events) (cpu.step bus).cpu := by
  have sound := h.sound.step bus
  have resting := h.resting.step h.sound bus
  rw [Cpu.step_of_vanishes boundary serves gone] at sound resting ⊢
  exact ⟨sound, resting, fun armed => absurd armed Bool.false_ne_true,
    .inr (.of_boundary cpu.choosing_suspended Gate.calm_closed),
    fun _ => ⟨.of_boundary cpu.choosing_suspended rfl, rfl⟩⟩

omit [Bus β] in
theorem ofOpcode_eq_ei_iff (opcode : UInt8) :
    Instruction.ofOpcode opcode = .enableInterrupts ↔ opcode = 0xFB := by
  have table : ∀ b : UInt8, Instruction.ofOpcode b = .enableInterrupts ↔ b = 0xFB :=
    forall_byte (by decide +kernel)
  exact table opcode

/-- A `HALT` that arms the bug finds interrupts disabled, and does not halt. -/
theorem Decided.disabled (h : Decided cpu bus) (armed : (cpu.step bus).cpu.haltBug = true) :
    (cpu.step bus).cpu.halted = false ∧ (cpu.step bus).cpu.ime = false := by
  have halted : (cpu.step bus).cpu.halted = false := by
    have differ := h.bug
    rw [← h.halted, armed] at differ
    exact Bool.not_eq_eq_eq_not.1 differ.symm
  have ime : (cpu.step bus).cpu.ime = (commitIme cpu).ime := by
    rw [commitIme_eq]
    exact congrArg Gate.ime h.gate
  have nothing := h.halted.symm.trans halted
  exact ⟨halted, ime.trans (Bool.or_eq_false_iff.1 nothing).1⟩

/-- An instruction begins, and what it sets is told by its opcode. -/
theorem Ordered.begin (h : Ordered past cpu) (boundary : cpu.suspended = none)
    (awake : cpu.halted = false) (idle : cpu.serves bus = false) :
    Ordered (past ++ milestones (cpu.step bus).events) (cpu.step bus).cpu := by
  have last : lastOpcode? (past ++ [eventFetched cpu bus]) = some (opcodeFetched cpu bus) :=
    lastOpcode?_append_singleton past _ _
  rw [(h.sound.step_begins boundary awake idle).2.2.1]
  -- all but a `HALT` and an `EI` leave nothing behind that the past would have to account for
  refine ⟨h.sound.step bus, h.resting.step h.sound bus, fun armed => ?_, ?_, fun served => ?_⟩
  · by_cases halts : Instruction.ofOpcode (opcodeFetched cpu bus) = .halt
    · obtain ⟨halted, ime⟩ := (h.sound.decided boundary awake idle halts).disabled armed
      rw [(ofOpcode_eq_halt_iff _).1 halts] at last
      exact ⟨halted, ime, last⟩
    · have clear := h.sound.disarmed_of_fetching boundary awake idle halts
      exact absurd (armed.symm.trans clear) Bool.true_eq_false.mp
  · by_cases ei : opcodeFetched cpu bus = 0xFB
    · rw [ei] at last
      exact .inl ⟨h.sound.suspended_of_ei boundary awake idle ei, last⟩
    · have keeps := keepsCalm_instruction (mt (ofOpcode_eq_ei_iff _).1 ei)
      exact .inr (h.sound.keeps_fetching boundary awake idle keeps cpu.gate.commit_calm)
  · cases (lastDispatched_append_singleton past _).1 served

theorem Ordered.step (h : Ordered past cpu) (bus : β) :
    Ordered (past ++ milestones (cpu.step bus).events) (cpu.step bus).cpu := by
  cases cpu.callKind bus with
  | inside s under => exact h.inside under
  | idling boundary halted => exact h.idle boundary halted
  | serving boundary serves line present => exact h.serve boundary serves present
  | vanishing boundary serves gone => exact h.vanish boundary serves gone
  | fetching boundary awake idle => exact h.begin boundary awake idle

end Calls

/-- The bits are always in order. -/
theorem Course.ordered {past : List Event} {cpu : Cpu} (h : Course past cpu) : Ordered past cpu := by
  induction h with
  | new model skipBoot => exact .ofScratch model skipBoot rfl
  | reset cpu skipBoot => exact .ofScratch cpu.model skipBoot rfl
  | setSpeed _ speed ih => exact ih.setSpeed _
  | call _ bus ih => exact ih.step bus

/-- After every call of every run, the interrupt state is coherent. -/
theorem Course.coherent {past : List Event} {cpu : Cpu} (h : Course past cpu) :
    Coherent past cpu := by
  have ordered := h.ordered
  refine ⟨fun halted => ?_, fun armed => ?_, fun pending disabled => ?_, fun last => ?_, ?_⟩
  · obtain ⟨boundary, clear⟩ := ordered.resting.halted halted
    refine ⟨Cpu.atBoundary_eq_true_iff.2 boundary, ?_, clear⟩
    rw [ScratchStack.isEmpty, ordered.sound.empty boundary]
    rfl
  · exact ⟨Cpu.atBoundary_eq_true_iff.2 (ordered.resting.armed armed), ordered.armed armed⟩
  · rcases ordered.pending with ⟨-, ei⟩ | calm
    · exact ei
    · exact absurd ((calm.gate pending).symm.trans disabled) Bool.true_eq_false.mp
  · obtain ⟨closed, clear⟩ := ordered.dispatch last
    exact ⟨congrArg Gate.ime closed.gate, congrArg Gate.pending closed.gate,
      congrArg Gate.delay closed.gate, clear⟩
  · rw [Registers.word, Word.low_ofBytes]
    exact cpu.regs.f.toNat_toByte_mod

/-- An `EI` and a `HALT` that arms the HALT bug. -/
def eiHalt : List Event := [.decoded .base 0xFB 0x0100, .decoded .base 0x76 0x0101]

/-- The interrupt that is served next, back at the `HALT`. -/
def eiHaltDispatch : List Event := eiHalt ++ [.dispatched ⟨0x01⟩ 0x0101 0xFFFE 0xFF 0xFF]

/-- The bug is armed after the first two, and the third is under way after its first call. -/
theorem Course.coherent_eiHaltDispatch :
    Course eiHalt afterEiHalt ∧ afterEiHalt.haltBug = true ∧ Coherent eiHalt afterEiHalt
      ∧ Course eiHaltDispatch (afterEiHalt.step openBus).cpu
      ∧ LastDispatched eiHaltDispatch ∧ (afterEiHalt.step openBus).cpu.atBoundary = false
      ∧ Coherent eiHaltDispatch (afterEiHalt.step openBus).cpu := by
  have passed : milestones (Cpu.step (.new .dmg true) (openBusExcept 0x0100 0xFB)).events
      = [.decoded .base 0xFB 0x0100] := by decide +kernel
  have passed' : milestones (afterEi.step (openBusExcept 0x0101 0x76)).events
      = [.decoded .base 0x76 0x0101] := by decide +kernel
  have passed'' : milestones (afterEiHalt.step openBus).events
      = [.dispatched ⟨0x01⟩ 0x0101 0xFFFE 0xFF 0xFF] := by decide +kernel
  have ei := Course.call (.new .dmg true) (openBusExcept 0x0100 0xFB)
  rw [passed] at ei
  have halt : Course eiHalt afterEiHalt := by
    have call := ei.call (openBusExcept 0x0101 0x76)
    rwa [← afterEi, passed'] at call
  have dispatch : Course eiHaltDispatch (afterEiHalt.step openBus).cpu := by
    have call := halt.call openBus
    rwa [passed''] at call
  exact ⟨halt, by decide +kernel, Course.coherent halt, dispatch, rfl, by decide +kernel,
    Course.coherent dispatch⟩

end Sm83
