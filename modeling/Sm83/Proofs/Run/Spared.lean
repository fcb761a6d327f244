import Sm83.Proofs.Microstep.Ordinary
import Sm83.Proofs.Run.Upshot

/-!
# What a call leaves alone

The HALT bug is armed by a `HALT`, and the speed switch is worked by a `STOP` and by data that is sent
to its register.  All else leaves both alone, up to disarming the bug.

* `Sparing` — what ordinary moves keep: a HALT bug that was not armed is not armed, and the speed
  switch is the same.
* `Cpu.Sound.spares_inside`, `Cpu.Sound.spares_serving`, `Cpu.Sound.spares_fetching` — so it is inside
  an instruction, but for the access that the call makes, where an interrupt is served, and with most
  that is fetched.
* `Cpu.Sound.switches_fetching`, `Cpu.Sound.halting_endsAt` — the two opcodes that are out of the
  ordinary are over with their first call.
* `Reachable.isSome_speed` — so it depends on the model alone whether there is a speed switch.
-/

namespace Sm83

open Machine

section Calls

variable {β : Type} [Bus β] {cpu : Cpu} {bus : β}

/-! ## Sparing the HALT bug and the speed -/

/-- What is to come is ordinary, the HALT bug is armed only if `bug` holds, and the speed switch is
this. -/
structure Sparing (bug : Prop) (speed : Option SpeedSwitch) (r : Option Position) (v : Scene β) :
    Prop where
  ordinary : ∀ p, r = some p → p.Ordinary
  bug : v.core.haltBug = true → bug
  speed : v.out.speed = speed

theorem Sparing.steady (bug : Prop) (speed : Option SpeedSwitch) :
    Steady (β := β) (Sparing bug speed) := by
  intro p v r w h instant acts
  obtain ⟨ordinary, spares⟩ := (h.ordinary p rfl).act acts
  refine ⟨ordinary, fun armed => h.bug (spares.bug armed), ?_⟩
  rw [spares.speed, Position.access?_of_instant v instant]
  exact h.speed

/-- The data access that the next call makes inside an instruction. -/
def Cpu.access? (cpu : Cpu) : Option Demand :=
  cpu.suspended.bind fun s => s.cycle.access? cpu.scratch.toList

/-- At a boundary there is none. -/
theorem Cpu.access?_of_boundary {cpu : Cpu} (boundary : cpu.suspended = none) :
    cpu.access? = none := by
  rw [access?, boundary]
  rfl

/-- What the bus is asked for. -/
theorem Cpu.demand?_eq (cpu : Cpu) :
    cpu.demand? = cpu.access?.bind fun d => Demand.unlessSwitch cpu.speed d.address d := by
  rw [demand?, access?]
  cases cpu.suspended with
  | none => rfl
  | some s => exact s.cycle.demand?_eq cpu.speed _

/-- A call inside an instruction does not arm the HALT bug, and touches the speed switch only by its
access. -/
theorem Cpu.Sound.spares_inside (h : cpu.Sound) {s : Suspension} (under : cpu.suspended = some s)
    (bus : β) :
    ((cpu.step bus).cpu.haltBug = true → cpu.haltBug = true)
      ∧ (cpu.step bus).cpu.speed = Demand.onSpeed cpu.speed cpu.access? := by
  have kept : Arrives (Sparing (cpu.haltBug = true) (Demand.onSpeed cpu.speed cpu.access?)) cpu
      (cpu.step bus) := by
    refine h.inside_keeps under (Sparing.steady _ _) fun r w acts => ?_
    obtain ⟨ordinary, spares⟩ := (h.within s under).2.ordinary.act acts
    refine ⟨ordinary, spares.bug, spares.speed.trans ?_⟩
    rw [Cpu.access?, under]
    rfl
  exact ⟨kept.shown.bug, kept.shown.speed⟩

/-- A call that starts to serve an interrupt disarms the HALT bug and leaves the speed switch alone. -/
theorem Cpu.Sound.spares_serving (h : cpu.Sound) (boundary : cpu.suspended = none)
    (serves : cpu.serves bus = true) {line : InterruptSet}
    (present : (Bus.poll (Bus.poll bus).2).1.first? = some line) :
    (cpu.step bus).cpu.haltBug = false ∧ (cpu.step bus).cpu.speed = cpu.speed := by
  have kept := (h.serving_keeps boundary serves present (Sparing.steady False cpu.speed) ?_).shown
  · exact ⟨Bool.eq_false_iff.2 kept.bug, kept.speed⟩
  · intro r w acts
    obtain ⟨ordinary, spares⟩ := ordinary_interrupt.act acts
    exact ⟨ordinary, fun armed => Bool.false_ne_true (spares.bug armed), spares.speed⟩

/-! ## Fetching, by what is fetched -/

/-- A call that fetches anything but a `HALT` or a `STOP` leaves no HALT bug armed and the speed switch
alone. -/
theorem Cpu.Sound.spares_fetching (h : cpu.Sound) (boundary : cpu.suspended = none)
    (awake : cpu.halted = false) (idle : cpu.serves bus = false)
    (live : Instruction.ofOpcode (opcodeFetched cpu bus) ≠ .halt)
    (runs : Instruction.ofOpcode (opcodeFetched cpu bus) ≠ .stop) :
    (cpu.step bus).cpu.haltBug = false ∧ (cpu.step bus).cpu.speed = cpu.speed := by
  have starts : Sparing False cpu.speed
      (some (Instruction.ofOpcode (opcodeFetched cpu bus)).microprogram.position)
      (sceneFetched cpu bus) := by
    refine ⟨?_, fun armed => ?_, sceneFetched_speed cpu bus⟩
    · rintro p ⟨⟩
      exact ordinary_instruction live runs
    · rw [sceneFetched_core] at armed
      cases armed
  have kept := (h.fetching_keeps boundary awake idle (Sparing.steady False cpu.speed) starts).shown
  exact ⟨Bool.eq_false_iff.2 kept.bug, kept.speed⟩

/-- A `STOP` works the speed switch, where there is one, and leaves the core. -/
theorem Control.stop_act (v : Scene β) :
    ∃ w, Control.stop.act v = some w ∧ w.core = v.core
      ∧ w.out.speed = v.out.speed.map fun speed => speed.switch.2 := by
  obtain ⟨xs, c, speed, bus, events⟩ := v
  match speed with
  | none | some ⟨_, true⟩ | some ⟨_, false⟩ => exact ⟨_, rfl, rfl, rfl⟩

/-- A call that fetches a `STOP` works the speed switch. -/
theorem Cpu.Sound.switches_fetching (h : cpu.Sound) (boundary : cpu.suspended = none)
    (awake : cpu.halted = false) (idle : cpu.serves bus = false)
    (stops : Instruction.ofOpcode (opcodeFetched cpu bus) = .stop) :
    (cpu.step bus).cpu.haltBug = false
      ∧ (cpu.step bus).cpu.speed = cpu.speed.map fun speed => speed.switch.2 := by
  obtain ⟨w, acts, core, speed⟩ := Control.stop_act (sceneFetched cpu bus)
  have ends := h.fetching_endsAt boundary awake idle (s := .control .stop) (by rw [stops]; rfl) rfl acts
  have bug : (sceneFetched cpu bus).core.haltBug = false := by rw [sceneFetched_core]
  rw [sceneFetched_speed] at speed
  rw [← core, ← ends.scene] at bug
  rw [← ends.scene] at speed
  exact ⟨bug, speed⟩

/-- A `HALT` leaves the speed switch alone. -/
theorem Control.halt_act (v : Scene β) :
    ∃ w, Control.halt.act v = some w ∧ w.out.speed = v.out.speed := by
  obtain ⟨xs, c, o⟩ := v
  refine ⟨_, rfl, ?_⟩
  split <;> rfl

/-- A call that fetches a `HALT` carries it out. -/
theorem Cpu.Sound.halting_endsAt (h : cpu.Sound) (boundary : cpu.suspended = none)
    (awake : cpu.halted = false) (idle : cpu.serves bus = false)
    (halts : Instruction.ofOpcode (opcodeFetched cpu bus) = .halt) :
    ∃ w, Control.halt.act (sceneFetched cpu bus) = some w ∧ EndsAt none w (cpu.step bus)
      ∧ (cpu.step bus).cpu.speed = cpu.speed := by
  obtain ⟨w, acts, speed⟩ := Control.halt_act (sceneFetched cpu bus)
  have ends := h.fetching_endsAt boundary awake idle (s := .control .halt) (by rw [halts]; rfl) rfl acts
  rw [sceneFetched_speed, ← ends.scene] at speed
  exact ⟨w, acts, ends, speed⟩

/-- Nothing but a `HALT` leaves the HALT bug armed. -/
theorem Cpu.Sound.disarmed_of_fetching (h : cpu.Sound) (boundary : cpu.suspended = none)
    (awake : cpu.halted = false) (idle : cpu.serves bus = false)
    (live : Instruction.ofOpcode (opcodeFetched cpu bus) ≠ .halt) :
    (cpu.step bus).cpu.haltBug = false := by
  by_cases stops : Instruction.ofOpcode (opcodeFetched cpu bus) = .stop
  · exact (h.switches_fetching boundary awake idle stops).1
  · exact (h.spares_fetching boundary awake idle live stops).1

/-! ## Having a speed switch -/

omit [Bus β] in
/-- An access works the speed switch at most. -/
theorem Demand.isSome_onSpeed (speed : Option SpeedSwitch) (d : Option Demand) :
    (onSpeed speed d).isSome = speed.isSome := by
  match d with
  | none | some (.read _) => rfl
  | some (.write a value) =>
    rw [onSpeed]
    split
    · exact Option.isSome_map
    · rfl

/-- A call neither fits a speed switch nor takes it away. -/
theorem Cpu.Sound.isSome_speed_step (h : cpu.Sound) (bus : β) :
    (cpu.step bus).cpu.speed.isSome = cpu.speed.isSome := by
  cases cpu.callKind bus with
  | inside s under => rw [(h.spares_inside under bus).2, Demand.isSome_onSpeed]
  | idling boundary halted =>
    rw [Cpu.step_of_idles boundary halted bus]
    exact congrArg Option.isSome cpu.choosing_speed
  | serving boundary serves line present => rw [(h.spares_serving boundary serves present).2]
  | vanishing boundary serves gone =>
    rw [Cpu.step_of_vanishes boundary serves gone]
    exact congrArg Option.isSome cpu.choosing_speed
  | fetching boundary awake idle =>
    by_cases stops : Instruction.ofOpcode (opcodeFetched cpu bus) = .stop
    · rw [(h.switches_fetching boundary awake idle stops).2, Option.isSome_map]
    · by_cases halts : Instruction.ofOpcode (opcodeFetched cpu bus) = .halt
      · obtain ⟨_, -, -, speed⟩ := h.halting_endsAt boundary awake idle halts
        rw [speed]
      · rw [(h.spares_fetching boundary awake idle halts stops).2]

end Calls

/-- The colour model has a speed switch, whatever a host does, and the other has none. -/
theorem Reachable.isSome_speed {cpu : Cpu} (h : Reachable cpu) :
    cpu.speed.isSome = true ↔ cpu.model = .cgb := by
  have fresh (model : Model) : model.speedSwitch.isSome = true ↔ model = .cgb := by
    cases model <;> decide
  induction h with
  | new model skipBoot => exact fresh model
  | step h bus ih =>
    rw [h.sound.isSome_speed_step, (h.sound.step_frame bus).1]
    exact ih
  | @reset cpu _ skipBoot _ => exact fresh cpu.model
  | setRegs _ _ ih | setIme _ _ ih => exact ih
  | setSpeed _ _ ih => exact (Bool.eq_iff_iff.1 Option.isSome_map).trans ih

end Sm83
