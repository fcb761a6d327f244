import Sm83.Proofs.Run.Isolation

/-!
# Where the two models agree

The colour model differs from the other in one address and in one instruction: data at the register
of the speed switch does not come to the bus, and a `STOP` makes the switch that was prepared there.  A
program that leaves the address alone prepares nothing, so it cannot tell the models apart by a `STOP`
either.

* `Cpu.Alike` — two processors with the same registers, the same interrupt state and the same
  instruction under way, whatever their models.
* `Lockstep.acrossModels` — accesses away from the register answer alike on both models.
* `Reachable.agrees` — two runs from a boundary on, as long as that of the monochrome model keeps
  away.
-/

namespace Sm83

open Bus (Access Recorded)

/-- Two processors that look alike to a program, whatever their models. -/
structure Cpu.Alike (cpu cpu' : Cpu) : Prop where
  regs : cpu'.regs = cpu.regs
  ime : cpu'.ime = cpu.ime
  imePending : cpu'.imePending = cpu.imePending
  imeDelay : cpu'.imeDelay = cpu.imeDelay
  halted : cpu'.halted = cpu.halted
  haltBug : cpu'.haltBug = cpu.haltBug
  /-- Both are at a boundary, or at the same place within an instruction. -/
  suspended : cpu'.suspended = cpu.suspended

/-- A processor without a speed switch and one with a switch that is not prepared meet the same away
from its register. -/
theorem Lockstep.acrossModels {β : Type} [Bus β] {speed : SpeedSwitch}
    (unprepared : speed.prepared = false) :
    Lockstep (· ≠ SpeedSwitch.address) (fun s s' => s = none ∧ s' = some speed)
      (fun b b' : β => b' = b) where
  polled := by decide
  shared off := absurd rfl off
  set _ _ h := nomatch h.1
  stops _ _ h := by
    obtain ⟨rfl, rfl⟩ := h
    exact .inr ⟨rfl, unprepared⟩
  read _ _ _ _ _ _ _ _ same := same ▸ ⟨rfl, rfl⟩
  write _ _ _ _ _ _ _ _ _ same := same ▸ rfl

section Calls

variable {β : Type} [Bus β] {cpu : Cpu}

/-- Without a speed switch the record of a call shows all its data accesses. -/
theorem Cpu.Sound.within_of_accesses (h : cpu.Sound) (plain : cpu.speed = none) {bus : β}
    {allowed : UInt16 → Prop}
    (seen : ∀ x ∈ (cpu.step (Recorded.mk [] bus)).bus.accesses, allowed x.address) :
    cpu.Within allowed (Recorded.mk [] bus) := by
  refine ⟨fun d accessed => ?_, fun boundary awake idle => ?_⟩
  · have accessed : cpu.access? = some d := accessed
    have demanded : cpu.demand? = some d := by
      rw [Cpu.demand?_eq, accessed, plain, Option.bind_some, Demand.unlessSwitch, ite_self]
    have inside : cpu.atBoundary = false := by
      refine Bool.eq_false_iff.2 fun boundary => ?_
      rw [Cpu.access?_of_boundary (Cpu.atBoundary_eq_true_iff.1 boundary)] at accessed
      cases accessed
    rw [(h.accesses_inside inside bus).2, demanded] at seen
    cases d with
    | read a | write a value => exact seen _ List.mem_cons_self
  · have idle : cpu.serves bus = false := idle
    rw [(h.accesses_fetching boundary awake idle).2, fetchAccesses, plain] at seen
    have fetched : Access.read cpu.regs.pc (opcodeFetched cpu bus) ∈ Bus.polling bus
        ++ [.read cpu.regs.pc (opcodeFetched cpu bus)] := List.mem_append_right _ List.mem_cons_self
    exact seen _ (List.mem_append_left _ fetched)

/-- Whatever a host can bring about, it can bring about with a run. -/
theorem Reachable.hosted (h : Reachable cpu) (host : Nat → β → β) (bus : β) (n : Nat) :
    Reachable (cpu.hosted host bus n).cpu := by
  induction n with
  | zero => exact h
  | succ n ih => exact ih.step _

/-- The monochrome model has no speed switch. -/
theorem Reachable.speed_eq_none (h : Reachable cpu) (monochrome : cpu.model = .dmg) :
    cpu.speed = none := by
  cases speed : cpu.speed with
  | none => rfl
  | some s =>
    have colour := h.isSome_speed.1 (Option.isSome_iff_exists.2 ⟨s, speed⟩)
    cases monochrome.symm.trans colour

end Calls

/-! ## Two boundaries -/

/-- At a boundary processors that look alike are abreast, up to the address of an opcode that is over
and done with. -/
theorem Cpu.Alike.abreast {β γ : Type} {S : SwitchRelation} {B : β → γ → Prop} {cpu cpu' : Cpu}
    (h : cpu.Alike cpu') (boundary : cpu.atBoundary = true) (sound : cpu.Sound)
    (sound' : cpu'.Sound) (speeds : S cpu.speed cpu'.speed) {bus : β} {bus' : γ}
    (buses : B bus bus') : Cpu.Abreast False S B cpu bus cpu' bus' := by
  have none := Cpu.atBoundary_eq_true_iff.1 boundary
  have none' := h.suspended.trans none
  refine ⟨h.suspended, ?_, ?_, fun told => ?_, rfl, speeds, buses⟩
  · exact (sound'.toList_eq_nil none').trans (sound.toList_eq_nil none).symm
  · show cpu'.core = cpu.core.addressed cpu'.opcodeAddress
    rw [Cpu.core, h.regs, h.ime, h.imePending, h.imeDelay, h.halted, h.haltBug]
    rfl
  · rw [none] at told
    exact told.elim False.elim False.elim

/-- Processors with the same core, up to the address of the opcode, at the same place look alike. -/
theorem Cpu.Alike.of_core {cpu cpu' : Cpu} {a : UInt16} (core : cpu'.core = cpu.core.addressed a)
    (suspended : cpu'.suspended = cpu.suspended) : cpu.Alike cpu' :=
  have core {α : Type} (f : Core → α) := congrArg f core
  ⟨core Core.regs, core Core.ime, core Core.imePending, core Core.imeDelay, core Core.halted,
    core Core.haltBug, suspended⟩

/-- What is abreast looks alike. -/
theorem Cpu.Abreast.alike {β γ : Type} {same : Prop} {S : SwitchRelation} {B : β → γ → Prop}
    {cpu cpu' : Cpu} {bus : β} {bus' : γ} (h : Cpu.Abreast same S B cpu bus cpu' bus') :
    cpu.Alike cpu' :=
  .of_core h.scene.core h.suspended

/-! ## Two runs -/

/-- The last calls of two runs, one on each model. -/
structure Agrees (colour : Cpu) (o o' : Outcome (Recorded Memory)) : Prop where
  cpu : o.cpu.Alike o'.cpu
  accesses : o'.bus.accesses = o.bus.accesses
  memory : o'.bus.inner = o.bus.inner
  events : o'.events = o.events
  fault : o'.fault = o.fault
  /-- The speed switch of the colour model was not touched. -/
  speed : o'.cpu.speed = colour.speed

/-- As long as the monochrome model keeps away from the register of the speed switch, the colour model
goes the same way. -/
theorem Reachable.agrees {mono colour : Cpu} (h : Reachable mono) (h' : Reachable colour)
    (models : mono.model = .dmg ∧ colour.model = .cgb) (boundary : mono.atBoundary = true)
    (alike : mono.Alike colour) (unprepared : colour.speed.any (·.prepared) = false) (mem : Memory)
    (requests : Nat → List InterruptSet) (n : Nat)
    (away : ∀ k < n,
      ∀ x ∈ (mono.hosted (fun k => Bus.requestAll (requests k)) mem (k + 1)).bus.accesses,
        x.address ≠ SpeedSwitch.address) :
    Agrees colour (mono.hosted (fun k => Bus.requestAll (requests k)) mem n)
      (colour.hosted (fun k => Bus.requestAll (requests k)) mem n) := by
  obtain ⟨speed, switch⟩ := Option.isSome_iff_exists.1 (h'.isSome_speed.2 models.2)
  rw [switch] at unprepared
  have lock : Lockstep _ _ (fun b b' : Memory => b' = b) := .acrossModels unprepared
  have hosts (k : Nat) (b b' : Memory) (same : b' = b) := congrArg (Bus.requestAll (requests k)) same
  have speeds : mono.speed = none ∧ colour.speed = some speed :=
    ⟨h.speed_eq_none models.1, switch⟩
  have start : Cpu.Abreast False (fun s s' => s = none ∧ s' = some speed) (fun b b' => b' = b)
      mono mem colour mem :=
    alike.abreast boundary h.sound h'.sound speeds rfl
  -- the record of the monochrome model shows all that it accesses, its opcodes among them
  have ends := lock.hosted hosts h.sound h'.sound start (n := n) <| by
    intro k hk
    obtain ⟨sound, model, -⟩ := h.sound.hosted (fun k => Bus.requestAll (requests k)) mem k
    have plain := (h.hosted (fun k => Bus.requestAll (requests k)) mem k).speed_eq_none
      (model.trans models.1)
    exact sound.within_of_accesses plain (away k hk)
  have bus := ends.cpu.scene.out.bus.eq
  exact ⟨ends.cpu.alike, congrArg Recorded.accesses bus, congrArg Recorded.inner bus, ends.events,
    ends.fault, ends.cpu.scene.out.speed.2.trans switch.symm⟩

/-- A program that stops at once. -/
def stopping : Memory := .set .zero 0x0000 0x10

/-- Neither model has anything to switch. -/
theorem Reachable.agrees_stopping :
    Reachable (.new .dmg false) ∧ Reachable (.new .cgb false)
      ∧ (Cpu.new .dmg false).Alike (.new .cgb false)
      ∧ ((Cpu.new .cgb false).hosted (fun _ => Bus.requestAll []) stopping 1).events
        = ((Cpu.new .dmg false).hosted (fun _ => Bus.requestAll []) stopping 1).events
      ∧ ((Cpu.new .cgb false).hosted (fun _ => Bus.requestAll []) stopping 1).cpu.speed
        = some .initial := by
  have mono : Reachable (.new .dmg false) := .new .dmg false
  have colour : Reachable (.new .cgb false) := .new .cgb false
  have alike : (Cpu.new .dmg false).Alike (.new .cgb false) := ⟨rfl, rfl, rfl, rfl, rfl, rfl, rfl⟩
  have opcode : opcodeFetched (.new .dmg false) stopping = 0x10 := Memory.get_set ..
  have away : ∀ k < 1, ∀ x ∈ ((Cpu.new .dmg false).hosted (fun _ => Bus.requestAll []) stopping
      (k + 1)).bus.accesses, x.address ≠ SpeedSwitch.address := by
    intro k hk x member
    obtain rfl : k = 0 := Nat.lt_one_iff.1 hk
    have accesses : (((Cpu.new .dmg false).step (Recorded.mk [] stopping)).bus.accesses) = _ :=
      (mono.sound.accesses_fetching rfl rfl rfl).2
    rw [opcode, fetchAccesses, opcode] at accesses
    have member : x ∈ ((Cpu.new .dmg false).step (Recorded.mk [] stopping)).bus.accesses := member
    rw [accesses, if_neg (by decide), if_neg (by decide), List.append_nil, List.mem_append,
      List.mem_singleton] at member
    rcases member with polled | rfl
    · exact Bus.polling_misses_switch polled
    · show (Cpu.new .dmg false).regs.pc ≠ SpeedSwitch.address
      decide
  have agrees := Reachable.agrees mono colour ⟨rfl, rfl⟩ rfl alike rfl stopping (fun _ => []) 1 away
  exact ⟨mono, colour, alike, agrees.events, agrees.speed⟩

end Sm83
