import Sm83.Proofs.Microstep.Quiet
import Sm83.Proofs.Run.Shown

/-!
# What a call comes to

Each of the five things that a call does is said here once and in full, as far as interrupts and the
bus are concerned: the gate that the instruction under way will leave, whether the processor is halted,
the milestones that were passed, and the bus.

* `Cpu.Sound.step_inside`, `Cpu.step_idling`, `Cpu.Sound.step_serving`, `Cpu.step_vanishing`,
  `Cpu.Sound.step_fetching` — what each comes to.
* `Cpu.Sound.step_halting` — a fetched `HALT` is apart from the other opcodes, for it polls again.
* `Cpu.Sound.step_begins` — what it has in common with them.

Most of it rests on what is steady once the interrupt registers are out of sight.  `Underway` is that
all moves to come are quiet and lead to one upshot: moves in no time leave that as it is, and the
machine cycle makes one demand on the bus.
-/

namespace Sm83

open Machine

/-! ## The upshot between calls -/

/-- The gate that the instruction under way leaves. -/
def Cpu.due (cpu : Cpu) : Gate := cpu.suspended.elim cpu.gate fun s => s.position.due cpu.gate

theorem Cpu.due_of_boundary {cpu : Cpu} (boundary : cpu.suspended = none) : cpu.due = cpu.gate := by
  rw [due, boundary]
  rfl

/-- What the instruction under way asks of the bus in the next call. -/
def Cpu.demand? (cpu : Cpu) : Option Demand :=
  cpu.suspended.bind fun s => s.cycle.demand? cpu.speed cpu.scratch.toList

/-- What a call came to. -/
def Outcome.upshot {β : Type} (o : Outcome β) : Upshot β :=
  { gate := o.cpu.due, halted := o.cpu.halted, milestones := milestones o.events, bus := o.bus }

section Calls

variable {β : Type} [Bus β]

omit [Bus β] in
/-- It can be told from what the call showed. -/
theorem Outcome.upshot_eq (o : Outcome β) :
    o.upshot = o.scene.upshot (o.cpu.suspended.map Suspension.position) := by
  rw [upshot, Cpu.due]
  cases o.cpu.suspended <;> rfl

/-! ## Moves out of sight of interrupts -/

/-- Nothing to come looks at the interrupt registers, and it comes to `u` if it asks no more of the
bus. -/
structure Underway (u : Upshot β) (r : Option Position) (v : Scene β) : Prop where
  quiet : ∀ p, r = some p → p.Quiet
  upshot : v.upshot r = u

theorem Underway.steady (u : Upshot β) : Steady (Underway u) := by
  intro p v r w h instant acts
  obtain ⟨quiet, same⟩ := (h.quiet p rfl).act acts
  rw [Position.demand?_of_instant v instant] at same
  exact ⟨quiet, same.trans h.upshot⟩

omit [Bus β] in
/-- A call that ended under way to an upshot has come to it. -/
theorem Arrives.cameTo {u : Upshot β} {cpu : Cpu} {o : Outcome β} (h : Arrives (Underway u) cpu o) :
    o.fault = none ∧ o.upshot = u := ⟨h.faultless, o.upshot_eq.trans h.shown.upshot⟩

/-! ## Inside an instruction -/

/-- An instruction under way makes the demand it waits with.  Otherwise it goes on towards what it was
going to come to. -/
theorem Cpu.Sound.step_inside {cpu : Cpu} {s : Suspension} (h : cpu.Sound)
    (under : cpu.suspended = some s) (bus : β) :
    (cpu.step bus).fault = none ∧ (cpu.step bus).upshot
      = { gate := cpu.due, halted := cpu.halted, milestones := []
          bus := Demand.meet cpu.demand? bus } := by
  have gate : s.position.due cpu.gate = cpu.due := by rw [Cpu.due, under, Option.elim_some]
  have demand : s.cycle.demand? cpu.speed cpu.scratch.toList = cpu.demand? := by
    rw [Cpu.demand?, under, Option.bind_some]
  refine (h.inside_keeps under (Underway.steady _) fun r w acts => ?_).cameTo
  obtain ⟨quiet, same⟩ := (h.within s under).2.quiet.act acts
  refine ⟨quiet, same.trans ((Upshot.mk.injEq ..).mpr ⟨gate, rfl, rfl, ?_⟩)⟩
  rw [← demand]
  rfl

/-! ## Halted -/

/-- A halted processor polls, and wakes if it finds an interrupt. -/
theorem Cpu.step_idling {cpu : Cpu} (boundary : cpu.suspended = none)
    (halted : cpu.halted = true) (bus : β) :
    (cpu.step bus).fault = none ∧ (cpu.step bus).upshot
      = { gate := cpu.gate.commit, halted := (Bus.poll bus).1.isEmpty, milestones := []
          bus := (Bus.poll bus).2 } := by
  have gate : cpu.choosing.gate = cpu.gate.commit := by
    rw [Cpu.choosing, commitIme_eq]
    rfl
  have passed : milestones (wakeNotes cpu.choosing (Bus.poll bus).1) = [] := by
    rw [wakeNotes]
    split <;> rfl
  rw [Cpu.step_of_idles boundary halted]
  exact ⟨rfl, (Upshot.mk.injEq ..).mpr ⟨gate, rfl, passed, rfl⟩⟩

/-! ## Serving an interrupt -/

/-- A processor that serves an interrupt closes the gate and withdraws the request of one line. -/
theorem Cpu.Sound.step_serving {cpu : Cpu} {bus : β} {line : InterruptSet} (h : cpu.Sound)
    (boundary : cpu.suspended = none) (serves : cpu.serves bus = true)
    (present : (Bus.poll (Bus.poll bus).2).1.first? = some line) :
    let bytes := Bus.interruptBytes (Bus.poll bus).2
    (cpu.step bus).fault = none ∧ (cpu.step bus).upshot
      = { gate := .closed, halted := false
          milestones := [.dispatched line (if cpu.haltBug then cpu.regs.pc - 1 else cpu.regs.pc)
            cpu.regs.sp bytes.2.1 bytes.1]
          bus := Bus.write requestAddress (bytes.2.1 &&& ~~~line.bits) bytes.2.2 } := by
  intro bytes
  have regs : cpu.choosing.core.regs = cpu.regs := cpu.choosing_regs
  have bug : cpu.choosing.core.haltBug = cpu.haltBug := by
    rw [Cpu.core, Cpu.choosing, commitIme_eq]
  have awake : cpu.choosing.core.halted = false := by
    have awake : cpu.halted = false := by
      cases halted : cpu.halted with
      | false => rfl
      | true =>
        rw [Cpu.serves, halted] at serves
        cases serves
    exact cpu.choosing_halted.trans awake
  refine (h.serving_keeps boundary serves present (Underway.steady _) fun r w acts => ?_).cameTo
  obtain ⟨quiet, same⟩ := quiet_interrupt.act acts
  refine ⟨quiet, same.trans ?_⟩
  show Upshot.mk _ cpu.choosing.core.halted _ _ = _
  rw [awake]
  simp only [sceneAcknowledged, Core.disarm, regs, bug]
  rfl

/-- Where the interrupt is gone when it is acknowledged, the call fails after two polls. -/
theorem Cpu.step_vanishing {cpu : Cpu} {bus : β} (boundary : cpu.suspended = none)
    (serves : cpu.serves bus = true)
    (gone : (Bus.poll (Bus.poll bus).2).1.isEmpty = true) :
    (cpu.step bus).fault = some .noPendingInterrupt
      ∧ (cpu.step bus).bus = (Bus.poll (Bus.poll bus).2).2 := by
  rw [Cpu.step_of_vanishes boundary serves gone]
  exact ⟨rfl, rfl⟩

/-! ## Fetching -/

/-- What an instruction does to the gate. -/
def Instruction.onGate : Instruction → Gate → Gate
  | .enableInterrupts, g => { g with pending := g.pending || !g.ime }
  | .disableInterrupts, _ => .closed
  | .reti, g => { g with ime := true }
  | _, g => g

/-- It is what its microprogram does. -/
theorem Instruction.due_eq_onGate (i : Instruction) (g : Gate) :
    i.microprogram.position.due g = i.onGate g := by
  cases i with
  | load dst src => cases dst <;> cases src <;> rfl
  | loadImmediate place | modify op place => cases place <;> rfl
  | storeA pointer | loadA pointer => cases pointer <;> rfl
  | accumulate op src => rcases src with (r | _) | _ <;> cases op <;> rfl
  | _ => rfl

/-- The bus after the opcode was fetched. -/
def busFetched (cpu : Cpu) (bus : β) : β :=
  Demand.meet (Demand.unlessSwitch cpu.speed cpu.regs.pc (.read cpu.regs.pc)) (Bus.poll bus).2

/-- The milestone of an opcode that was fetched. -/
def eventFetched (cpu : Cpu) (bus : β) : Event :=
  .decoded .base (opcodeFetched cpu bus) cpu.regs.pc

/-- What is shown when the instruction starts. -/
theorem sceneFetched_upshot {cpu : Cpu} (awake : cpu.halted = false) (bus : β) (i : Instruction) :
    (sceneFetched cpu bus).upshot (some i.microprogram.position)
      = { gate := i.onGate cpu.gate.commit, halted := false
          milestones := [eventFetched cpu bus], bus := busFetched cpu bus } := by
  have gate : (sceneFetched cpu bus).core.gate = cpu.gate.commit
      ∧ (sceneFetched cpu bus).core.halted = cpu.halted := by
    rw [sceneFetched_core, commitIme_eq]
    exact ⟨rfl, rfl⟩
  obtain ⟨loads, none⟩ := (Outside.mk cpu.speed (Bus.poll bus).2 []).load_meets cpu.regs.pc
  refine (Upshot.mk.injEq ..).mpr ⟨?_, gate.2.trans awake, ?_, loads⟩
  · show i.microprogram.position.due (sceneFetched cpu bus).core.gate = _
    rw [gate.1, i.due_eq_onGate]
  · show milestones ((Outside.load _ _).2.events ++ [_]) = _
    rw [milestones_append, none]
    rfl

variable {cpu : Cpu} {bus : β}

/-- An opcode other than a `HALT` is fetched, and its instruction begun. -/
theorem Cpu.Sound.step_fetching (h : cpu.Sound) (boundary : cpu.suspended = none)
    (awake : cpu.halted = false) (idle : cpu.serves bus = false)
    (live : Instruction.ofOpcode (opcodeFetched cpu bus) ≠ .halt) :
    (cpu.step bus).fault = none ∧ (cpu.step bus).upshot
      = { gate := (Instruction.ofOpcode (opcodeFetched cpu bus)).onGate cpu.gate.commit
          halted := false, milestones := [eventFetched cpu bus], bus := busFetched cpu bus } := by
  refine (h.fetching_keeps boundary awake idle (Underway.steady _) ⟨?_, ?_⟩).cameTo
  · rintro p ⟨⟩
    exact quiet_instruction live
  · exact sceneFetched_upshot awake bus _

omit [Bus β] in
/-- Taking note of what is no milestone leaves what an instruction has come to. -/
theorem upshot_note (xs : List UInt8) (c : Core) (o : Outside β) {e : Event}
    (h : e.isMilestone = false) :
    Scene.upshot ⟨xs, c, o.note e⟩ none = Scene.upshot ⟨xs, c, o⟩ none :=
  (Upshot.mk.injEq ..).mpr ⟨rfl, rfl, o.milestones_note h, rfl⟩

/-- The step of a `HALT` polls, and halts the processor unless it arms the HALT bug. -/
theorem Control.halt_upshot (v : Scene β) :
    ∃ w, Control.halt.act v = some w ∧ w.upshot none = { v.upshot none with
      halted := v.core.ime || (Bus.poll v.out.bus).1.isEmpty || v.core.halted
      bus := (Bus.poll v.out.bus).2 } := by
  obtain ⟨xs, c, o⟩ := v
  refine ⟨_, rfl, ?_⟩
  show (if (c.ime || (Bus.poll o.bus).1.isEmpty) = true then _ else _ : Scene β).upshot none = _
  cases halts : c.ime || (Bus.poll o.bus).1.isEmpty with
  | true =>
    rw [if_pos rfl, upshot_note _ _ _ rfl]
    rw [Bool.true_or]
    rfl
  | false =>
    rw [if_neg Bool.false_ne_true, upshot_note _ _ _ rfl]
    rw [Bool.false_or]
    rfl

/-- A `HALT` polls after its fetch, and halts the processor if interrupts are enabled or none is
there. -/
theorem Cpu.Sound.step_halting (h : cpu.Sound) (boundary : cpu.suspended = none)
    (awake : cpu.halted = false) (idle : cpu.serves bus = false)
    (halts : Instruction.ofOpcode (opcodeFetched cpu bus) = .halt) :
    (cpu.step bus).fault = none ∧ (cpu.step bus).upshot
      = { gate := cpu.gate.commit
          halted := cpu.gate.commit.ime || (Bus.poll (busFetched cpu bus)).1.isEmpty
          milestones := [eventFetched cpu bus], bus := (Bus.poll (busFetched cpu bus)).2 } := by
  obtain ⟨w, acts, came⟩ := Control.halt_upshot (sceneFetched cpu bus)
  have ends := h.fetching_endsAt boundary awake idle (s := .control .halt) (by rw [halts]; rfl) rfl acts
  obtain ⟨gate, still, passed, fetched⟩ :=
    (Upshot.mk.injEq ..).mp (sceneFetched_upshot awake bus .halt)
  have ime : (sceneFetched cpu bus).core.ime = cpu.gate.commit.ime := congrArg Gate.ime gate
  have same : (sceneFetched cpu bus).upshot none
      = ⟨cpu.gate.commit, false, [eventFetched cpu bus], busFetched cpu bus⟩ :=
    (Upshot.mk.injEq ..).mpr ⟨gate, still, passed, fetched⟩
  rw [same, ime, still, fetched, Bool.or_false] at came
  refine ⟨ends.faultless, ?_⟩
  rw [Outcome.upshot_eq, ends.suspended, ends.scene]
  exact came

/-- What a `HALT` has in common with the other opcodes: it begins, and does to the gate what it does. -/
theorem Cpu.Sound.step_begins (h : cpu.Sound) (boundary : cpu.suspended = none)
    (awake : cpu.halted = false) (idle : cpu.serves bus = false) :
    (cpu.step bus).fault = none
      ∧ (cpu.step bus).cpu.due
        = (Instruction.ofOpcode (opcodeFetched cpu bus)).onGate cpu.gate.commit
      ∧ milestones (cpu.step bus).events = [eventFetched cpu bus]
      ∧ (Instruction.ofOpcode (opcodeFetched cpu bus) ≠ .halt → (cpu.step bus).cpu.halted = false) := by
  by_cases halts : Instruction.ofOpcode (opcodeFetched cpu bus) = .halt
  · obtain ⟨fault, came⟩ := h.step_halting boundary awake idle halts
    refine ⟨fault, ?_, congrArg Upshot.milestones came, fun live => absurd halts live⟩
    rw [halts]
    exact congrArg Upshot.gate came
  · obtain ⟨fault, came⟩ := h.step_fetching boundary awake idle halts
    exact ⟨fault, congrArg Upshot.gate came, congrArg Upshot.milestones came,
      fun _ => congrArg Upshot.halted came⟩

end Calls

end Sm83
