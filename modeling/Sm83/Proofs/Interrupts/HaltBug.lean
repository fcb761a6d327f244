import Sm83.Proofs.Interrupts.Dispatch
import Sm83.Proofs.Interrupts.History
import Sm83.Proofs.Run.Accesses
import Sm83.Proofs.Run.Spared

/-!
# What an armed HALT bug returns to

An interrupt that finds the HALT bug armed returns one address before the program counter.  That
would be one too far after a `HALT` that was itself fetched under the bug, for then the program
counter has not moved past it.  Nothing in the processor looks for this case.  It does not arise,
because to serve an interrupt right after a `HALT` that did not halt takes an `EI` right before it, and
no bug outlives an `EI`.

* `Episode`, `Chronicle` — runs from a reset on, like `History`, with the processor that each milestone
  was passed by.
* `Remembers` — the invariant.  An `EI` is pending only directly after it, and the HALT bug is armed
  only directly after the `HALT` that armed it; what that `HALT` found is told by the bits it left.
* `Chronicle.returnsToHalt` — so the address that is pushed is the one that the `HALT` was fetched
  from.
-/

namespace Sm83

open Machine

/-! ## Chronicles -/

/-- A milestone, and the processor at the beginning of the call that passed it. -/
structure Episode where
  event : Event
  start : Cpu

namespace Episode

/-- An `EI` was executed with interrupts disabled. -/
def Enables (e : Episode) : Prop := e.event.isEi = true ∧ (commitIme e.start).ime = false

/-- A `HALT` was executed that was fetched from this address. -/
structure HaltsAt (a : UInt16) (e : Episode) : Prop where
  event : e.event = .decoded .base 0x76 a
  pc : e.start.regs.pc = a

end Episode

/-- The milestones of a call, as episodes. -/
def episodes {β : Type} [Bus β] (cpu : Cpu) (bus : β) : List Episode :=
  (milestones (cpu.step bus).events).map (⟨·, cpu⟩)

/-- Runs of calls from a reset on, each on whatever bus there is, with the episodes since that reset.
The host may set the speed switch in between. -/
inductive Chronicle : List Episode → Cpu → Prop
  | new (model : Model) (skipBoot : Bool) : Chronicle [] (.new model skipBoot)
  | reset {cpu : Cpu} (h : Reachable cpu) (skipBoot : Bool) : Chronicle [] (cpu.reset skipBoot)
  | setSpeed {past : List Episode} {cpu : Cpu} (h : Chronicle past cpu) (speed : SpeedSwitch) :
    Chronicle past { cpu with speed := cpu.speed.map fun _ => speed }
  | call {past : List Episode} {cpu : Cpu} (h : Chronicle past cpu) {β : Type} [Bus β] (bus : β)
    (faultless : (cpu.step bus).fault = none) :
    Chronicle (past ++ episodes cpu bus) (cpu.step bus).cpu

/-- Without the processors it is a history. -/
theorem Chronicle.history {past : List Episode} {cpu : Cpu} (h : Chronicle past cpu) :
    History (past.map Episode.event) cpu := by
  induction h with
  | new model skipBoot => exact .new model skipBoot
  | reset h skipBoot => exact .reset h skipBoot
  | setSpeed _ speed ih => exact ih.setSpeed speed
  | @call past cpu h β _ bus faultless ih =>
    have same : (episodes cpu bus).map Episode.event = milestones (cpu.step bus).events := by
      rw [episodes, List.map_map]
      exact List.map_id _
    rw [List.map_append, same]
    exact ih.call bus faultless

/-! ## What the bits remember -/

/-- The last episode is one with the property. -/
def Latest (P : Episode → Prop) (past : List Episode) : Prop := ∃ before e, past = before ++ [e] ∧ P e

theorem latest_append_singleton {P : Episode → Prop} (past : List Episode) {e : Episode} (h : P e) :
    Latest P (past ++ [e]) := ⟨past, e, rfl, h⟩

/-- The `HALT` that armed the bug of this processor, after these episodes. -/
structure Arms (cpu : Cpu) (before : List Episode) (halt : Episode) : Prop where
  halts : halt.HaltsAt cpu.opcodeAddress
  /-- The program counter has moved past it, unless the `HALT` was fetched under the bug. -/
  pc : cpu.regs.pc = if halt.start.haltBug then cpu.opcodeAddress else cpu.opcodeAddress + 1
  /-- If interrupts are about to be enabled, it was not, and an `EI` came directly before. -/
  delayed : cpu.imeDelay = true → halt.start.haltBug = false ∧ Latest Episode.Enables before

/-- What a processor remembers of its past. -/
structure Remembers (past : List Episode) (cpu : Cpu) : Prop where
  /-- Enabling interrupts is asked for only directly after the `EI` that asked. -/
  pending : cpu.due.pending = true → cpu.due.ime = false →
    cpu.suspended = none ∧ cpu.haltBug = false ∧ Latest Episode.Enables past
  /-- The HALT bug is armed only directly after the `HALT` that armed it. -/
  armed : cpu.haltBug = true → cpu.suspended = none ∧ cpu.halted = false ∧ cpu.ime = false
    ∧ ∃ before halt, past = before ++ [halt] ∧ Arms cpu before halt

/-- Where nothing is pending and nothing armed, there is nothing to remember. -/
theorem Remembers.of_clear {cpu : Cpu} (past : List Episode)
    (calm : cpu.due.pending = true → cpu.due.ime = true) (clear : cpu.haltBug = false) :
    Remembers past cpu :=
  ⟨fun pending disabled => absurd ((calm pending).symm.trans disabled) Bool.true_eq_false.mp,
    fun armed => absurd (armed.symm.trans clear) Bool.true_eq_false.mp⟩

/-- A boundary leaves nothing pending, unless interrupts are enabled. -/
theorem Gate.commit_calm (g : Gate) (pending : g.commit.pending = true) : g.commit.ime = true := by
  obtain ⟨ime, pending', delay⟩ := g
  obtain ⟨-, rfl⟩ : pending' = true ∧ delay = true := Bool.and_eq_true_iff.1 pending
  exact Bool.or_true ime

/-- And so does an instruction that is no `EI`. -/
theorem onGate_calm (opcode : UInt8) (g : Gate) (calm : g.pending = true → g.ime = true)
    (pending : ((Instruction.ofOpcode opcode).onGate g).pending = true)
    (disabled : ((Instruction.ofOpcode opcode).onGate g).ime = false) :
    opcode = 0xFB ∧ g.ime = false := by
  have table : ∀ b : UInt8, ∀ ime pending delay : Bool, (pending = true → ime = true) →
      ((Instruction.ofOpcode b).onGate ⟨ime, pending, delay⟩).pending = true →
      ((Instruction.ofOpcode b).onGate ⟨ime, pending, delay⟩).ime = false →
      b = 0xFB ∧ ime = false := forall_byte (by decide +kernel)
  exact table opcode g.ime g.pending g.delay calm pending disabled

section Call

variable {β : Type} [Bus β] {past : List Episode} {cpu : Cpu} {bus : β}

/-- A `HALT` that arms the bug found interrupts disabled, and changes nothing else of the core. -/
theorem Control.halt_arms {v w : Scene β} (acts : Control.halt.act v = some w)
    (clear : v.core.haltBug = false) (armed : w.core.haltBug = true) :
    w.core = { v.core with haltBug := true } ∧ v.core.ime = false := by
  obtain ⟨xs, c, o⟩ := v
  cases acts
  split at armed
  next => exact absurd (armed.symm.trans clear) Bool.true_eq_false.mp
  next disabled =>
    rw [if_neg disabled]
    rw [Bool.or_eq_true, not_or, Bool.not_eq_true] at disabled
    exact ⟨rfl, disabled.1⟩

/-- A `HALT` is fetched, and what it arms is remembered. -/
theorem Remembers.halting (h : Remembers past cpu) (sound : cpu.Sound)
    (boundary : cpu.suspended = none) (awake : cpu.halted = false) (idle : cpu.serves bus = false)
    (halts : Instruction.ofOpcode (opcodeFetched cpu bus) = .halt)
    (armed : (cpu.step bus).cpu.haltBug = true) :
    (cpu.step bus).cpu.suspended = none ∧ (cpu.step bus).cpu.halted = false
      ∧ (cpu.step bus).cpu.ime = false ∧ Arms (cpu.step bus).cpu past ⟨eventFetched cpu bus, cpu⟩ := by
  obtain ⟨w, acts, ends, -⟩ := sound.halting_endsAt boundary awake idle halts
  have core : (cpu.step bus).cpu.core = w.core := congrArg Scene.core ends.scene
  have clear : (sceneFetched cpu bus).core.haltBug = false := by rw [sceneFetched_core]
  obtain ⟨arms, disabled⟩ :=
    Control.halt_arms acts clear ((congrArg Core.haltBug core).symm.trans armed)
  rw [arms, sceneFetched_core] at core
  rw [sceneFetched_core] at disabled
  have address : (cpu.step bus).cpu.opcodeAddress = cpu.regs.pc := congrArg Core.opcodeAddress core
  refine ⟨ends.suspended, ?_, (congrArg Core.ime core).trans disabled, ?_⟩
  · rw [commitIme_eq] at core
    exact (congrArg Core.halted core).trans awake
  rw [commitIme_eq] at core disabled
  refine ⟨⟨?_, address.symm⟩, ?_, fun delayed => ?_⟩
  · rw [address, eventFetched, (ofOpcode_eq_halt_iff _).1 halts]
  · rw [address]
    exact congrArg (fun c : Core => c.regs.pc) core
  · -- interrupts were asked for before this `HALT` was fetched
    have asked : (cpu.imePending && !cpu.imeDelay) = true :=
      (congrArg Core.imeDelay core).symm.trans delayed
    have due : cpu.due = cpu.gate := Cpu.due_of_boundary boundary
    refine (h.pending ?_ ?_).2
    · rw [due]
      exact (Bool.and_eq_true_iff.1 asked).1
    · rw [due]
      exact (Bool.or_eq_false_iff.1 disabled).1

/-- An instruction begins, and the processor remembers what it has to. -/
theorem Remembers.begin (h : Remembers past cpu) (sound : cpu.Sound)
    (boundary : cpu.suspended = none) (awake : cpu.halted = false) (idle : cpu.serves bus = false) :
    Remembers (past ++ episodes cpu bus) (cpu.step bus).cpu := by
  obtain ⟨-, gate, passed, -⟩ := sound.step_begins boundary awake idle
  have passed : episodes cpu bus = [⟨eventFetched cpu bus, cpu⟩] := by
    rw [episodes, passed, List.map_singleton]
  rw [passed]
  refine ⟨fun pending disabled => ?_, fun armed => ?_⟩
  · rw [gate] at pending disabled
    obtain ⟨ei, disabled⟩ := onGate_calm _ _ (Gate.commit_calm _) pending disabled
    have live : Instruction.ofOpcode (opcodeFetched cpu bus) ≠ .halt := by
      rw [ei, ofOpcode_ei]
      exact Instruction.noConfusion
    refine ⟨sound.suspended_of_ei boundary awake idle ei,
      sound.disarmed_of_fetching boundary awake idle live, latest_append_singleton past ⟨?_, ?_⟩⟩
    · rw [eventFetched, ei]
      rfl
    · rw [commitIme_eq]
      exact disabled
  · by_cases halts : Instruction.ofOpcode (opcodeFetched cpu bus) = .halt
    · obtain ⟨under, awake', disabled, arms⟩ := h.halting sound boundary awake idle halts armed
      exact ⟨under, awake', disabled, past, _, rfl, arms⟩
    · have disarmed := sound.disarmed_of_fetching boundary awake idle halts
      exact absurd (armed.symm.trans disarmed) Bool.true_eq_false.mp

/-- Every call that does not fail leaves what is to be remembered. -/
theorem Remembers.step (h : Remembers past cpu) (sound : cpu.Sound)
    (faultless : (cpu.step bus).fault = none) :
    Remembers (past ++ episodes cpu bus) (cpu.step bus).cpu := by
  rcases cpu.callKind bus with ⟨s, under⟩ | ⟨boundary, halted⟩ | ⟨boundary, serves, line, present⟩
    | ⟨boundary, serves, gone⟩ | ⟨boundary, awake, idle⟩
  · -- inside an instruction the gate that is due stays, and where there was an instruction there was
    -- nothing to remember
    have came := (sound.step_inside under bus).2
    have gate : (cpu.step bus).cpu.due = cpu.due := congrArg Upshot.gate came
    have nowhere (boundary : cpu.suspended = none) : False :=
      Option.some_ne_none s (under.symm.trans boundary)
    refine ⟨fun pending disabled => ?_, fun armed => ?_⟩
    · rw [gate] at pending disabled
      exact (nowhere (h.pending pending disabled).1).elim
    · exact (nowhere (h.armed ((sound.spares_inside under bus).1 armed)).1).elim
  · have came := (Cpu.step_idling boundary halted bus).2
    have gate : (cpu.step bus).cpu.due = cpu.gate.commit := congrArg Upshot.gate came
    refine .of_clear _ (fun pending => ?_) (Bool.eq_false_iff.2 fun armed => ?_)
    · rw [gate] at pending ⊢
      exact Gate.commit_calm _ pending
    · rw [Cpu.step_of_idles boundary halted, Cpu.choosing, commitIme_eq] at armed
      exact absurd ((h.armed armed).2.1.symm.trans halted) Bool.false_ne_true
  · have came := (sound.step_serving boundary serves present).2
    have gate : (cpu.step bus).cpu.due = .closed := congrArg Upshot.gate came
    refine .of_clear _ (fun pending => ?_) (sound.spares_serving boundary serves present).1
    rw [gate] at pending
    cases pending
  · have failed := (Cpu.step_vanishing boundary serves gone).1
    exact absurd (failed.symm.trans faultless) (Option.some_ne_none _)
  · exact h.begin sound boundary awake idle

end Call

/-- The bits always remember. -/
theorem Chronicle.remembers {past : List Episode} {cpu : Cpu} (h : Chronicle past cpu) :
    Remembers past cpu := by
  have calm {cpu : Cpu} (boundary : cpu.suspended = none) (closed : cpu.gate = .closed) :
      cpu.due.pending = true → cpu.due.ime = true := by
    rw [Cpu.due_of_boundary boundary, closed]
    exact fun pending => pending
  induction h with
  | new model skipBoot => exact .of_clear _ (calm rfl rfl) rfl
  | reset _ skipBoot => exact .of_clear _ (calm rfl rfl) rfl
  | setSpeed _ speed ih =>
    refine ⟨ih.pending, fun armed => ?_⟩
    obtain ⟨under, awake, disabled, before, halt, split, arms⟩ := ih.armed armed
    exact ⟨under, awake, disabled, before, halt, split, arms.halts, arms.pc, arms.delayed⟩
  | call h bus faultless ih => exact ih.step h.history.reachable.sound faultless

/-! ## What is returned to -/

/-- How an interrupt is served that finds the HALT bug armed. -/
structure ReturnsToHalt {β : Type} [Bus β] (past : List Episode) (cpu : Cpu) (buses : Nat → β) :
    Prop where
  /-- The last instruction was a `HALT` that was not fetched under the bug, and the one directly before
  it an `EI` that found interrupts disabled. -/
  episodes : ∃ before ei halt, past = before ++ [ei, halt] ∧ ei.Enables
    ∧ halt.HaltsAt cpu.opcodeAddress ∧ halt.start.haltBug = false
  /-- The program counter is put back to that `HALT`. -/
  returns : cpu.returnAddress = cpu.opcodeAddress
  /-- Unless the interrupt is gone when it is acknowledged, five calls serve it, and push the address of
  that `HALT`. -/
  serves : (cpu.step (buses 0)).fault = none →
    ∃ line, ServesLine line cpu.opcodeAddress cpu buses

/-- In every run, an interrupt that finds the HALT bug armed returns to the `HALT` that armed it. -/
theorem Chronicle.returnsToHalt {past : List Episode} {cpu : Cpu} (h : Chronicle past cpu)
    (armed : cpu.haltBug = true) {β : Type} [Bus β] (buses : Nat → β)
    (starts : StartsDispatch (cpu.step (buses 0))) : ReturnsToHalt past cpu buses := by
  obtain ⟨boundary, awake, disabled, before, halt, rfl, arms⟩ := h.remembers.armed armed
  have reachable := h.history.reachable
  have serves := (h.history.recalls.startsDispatch_iff reachable.sound boundary).1 starts
  -- interrupts are not enabled, so this boundary enables them
  have delayed : cpu.imeDelay = true := by
    rw [Cpu.serves, awake, commitIme_eq, disabled] at serves
    exact (Bool.and_eq_true_iff.1 serves).1
  obtain ⟨clear, earlier, ei, rfl, enables⟩ := arms.delayed delayed
  have returns : cpu.returnAddress = cpu.opcodeAddress := by
    rw [Cpu.returnAddress, if_pos armed, arms.pc, clear, if_neg Bool.false_ne_true]
    exact UInt16.add_sub_cancel _ _
  refine ⟨⟨earlier, ei, halt, by rw [List.append_assoc]; rfl, enables, arms.halts, clear⟩, returns,
    fun faultless => ?_⟩
  cases present : (Bus.poll (Bus.poll (buses 0)).2).1.first? with
  | some line => exact ⟨line, returns ▸ reachable.servesLine boundary serves present⟩
  | none =>
    have gone := (InterruptSet.first?_eq_none_iff _).1 present
    have failed := (Cpu.step_vanishing boundary serves gone).1
    exact absurd (failed.symm.trans faultless) (Option.some_ne_none _)

/-- The processor after an `EI` and a `HALT` that finds an interrupt pending. -/
def afterEiHalt : Cpu := (afterEi.step (openBusExcept 0x0101 0x76)).cpu

/-- The interrupt is served at once, and returns to the `HALT`. -/
theorem Chronicle.returnsToHalt_delayed :
    Chronicle [⟨.decoded .base 0xFB 0x0100, .new .dmg true⟩, ⟨.decoded .base 0x76 0x0101, afterEi⟩]
        afterEiHalt
      ∧ afterEiHalt.haltBug = true ∧ StartsDispatch (afterEiHalt.step openBus)
      ∧ ∃ line, ServesLine line 0x0101 afterEiHalt fun _ => openBus := by
  have passed : milestones (Cpu.step (.new .dmg true) (openBusExcept 0x0100 0xFB)).events
      = [.decoded .base 0xFB 0x0100] := by decide +kernel
  have passed' : milestones (afterEi.step (openBusExcept 0x0101 0x76)).events
      = [.decoded .base 0x76 0x0101] := by decide +kernel
  have first : Chronicle [⟨.decoded .base 0xFB 0x0100, .new .dmg true⟩] afterEi := by
    have chronicle := Chronicle.call (.new .dmg true) (openBusExcept 0x0100 0xFB) (by decide +kernel)
    rwa [episodes, passed] at chronicle
  have second : Chronicle [⟨.decoded .base 0xFB 0x0100, .new .dmg true⟩,
      ⟨.decoded .base 0x76 0x0101, afterEi⟩] afterEiHalt := by
    have chronicle := first.call (openBusExcept 0x0101 0x76) (by decide +kernel)
    rwa [episodes, passed'] at chronicle
  have armed : afterEiHalt.haltBug = true := by decide +kernel
  have starts : StartsDispatch (afterEiHalt.step openBus) := .inr (by decide +kernel)
  have address : afterEiHalt.opcodeAddress = 0x0101 := by decide +kernel
  have returns := Chronicle.returnsToHalt second armed (fun _ => openBus) starts
  exact ⟨second, armed, starts, address ▸ returns.serves (by decide +kernel)⟩

end Sm83
