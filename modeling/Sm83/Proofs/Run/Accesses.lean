import Sm83.Bus.Recorded
import Sm83.Proofs.Run.Timing
import Sm83.Proofs.Run.Upshot

/-!
# What a call asks of the bus

A peripheral that runs beside the processor sees it machine cycle by machine cycle, and relies on
what a cycle may touch.  The accesses are read off a recorded bus: what a call comes to is known for
every bus (`Run.Upshot`), so for a recorded one too, and there the accesses are part of the bus.

* `Demand.accesses`, `Bus.polling` — the accesses of a demand and of a poll.
* `Disciplined` — the accesses of a call, in each of the four states in which it can find the
  processor.
* `Reachable.disciplined` — every call of every run keeps to them.
-/

namespace Sm83

open Bus (Access Recorded)

section Accesses

variable {β : Type} [Bus β]

/-! ## Accesses on record -/

/-- Where an access goes to. -/
def Bus.Access.address : Access → UInt16
  | .read a _ | .write a _ => a

/-- The access that meets a demand. -/
def Demand.accesses (d : Option Demand) (bus : β) : List Access :=
  match d with
  | none => []
  | some (.read a) => [.read a (Bus.read a bus).1]
  | some (.write a value) => [.write a value]

/-- The accesses of a poll. -/
def Bus.polling (bus : β) : List Access :=
  let (enabled, requested, _) := interruptBytes bus
  [.read enableAddress enabled, .read requestAddress requested]

/-- A demand needs one access at most. -/
theorem Demand.length_accesses_le (d : Option Demand) (bus : β) : (accesses d bus).length ≤ 1 := by
  match d with
  | none => exact Nat.zero_le 1
  | some (.read a) | some (.write a value) => exact Nat.le_refl 1

/-- A recorded bus adds the access to its record. -/
theorem Demand.meet_recorded (d : Option Demand) (latest : List Access) (bus : β) :
    meet d (Recorded.mk latest bus) = ⟨(accesses d bus).reverse ++ latest, meet d bus⟩ := by
  match d with
  | none => rfl
  | some (.read a) | some (.write a value) => rfl

/-- And so it does with the accesses of a poll. -/
theorem Bus.poll_recorded (latest : List Access) (bus : β) :
    poll (Recorded.mk latest bus)
      = ((poll bus).1, ⟨(polling bus).reverse ++ latest, (poll bus).2⟩) := rfl

/-- The access that fetches an opcode: a read where the program counter points, unless the speed switch
answers there. -/
def fetchAccesses (cpu : Cpu) (bus : β) : List Access :=
  if cpu.speed.isSome ∧ cpu.regs.pc = SpeedSwitch.address then []
  else [.read cpu.regs.pc (opcodeFetched cpu bus)]

theorem accesses_fetch (cpu : Cpu) (bus : β) :
    Demand.accesses (Demand.unlessSwitch cpu.speed cpu.regs.pc (.read cpu.regs.pc)) (Bus.poll bus).2
      = fetchAccesses cpu bus := by
  rw [fetchAccesses, opcodeFetched, Outside.load, Outside.speedAt?, Demand.unlessSwitch]
  by_cases switch : cpu.regs.pc = SpeedSwitch.address
  · cases cpu.speed with
    | some speed => simp only [switch, if_true, Option.isSome_some, and_self, Demand.accesses]
    | none => simp only [switch, if_true, Option.isSome_none, Bool.false_eq_true, false_and, if_false,
        Demand.accesses]
  · simp only [switch, if_false, and_false, Demand.accesses]

/-- A recorded bus answers with the same opcode. -/
theorem opcodeFetched_recorded (cpu : Cpu) (latest : List Access) (bus : β) :
    opcodeFetched cpu (Recorded.mk latest bus) = opcodeFetched cpu bus := by
  rw [opcodeFetched, opcodeFetched, Outside.load, Outside.load, Outside.speedAt?, Outside.speedAt?]
  cases if cpu.regs.pc = SpeedSwitch.address then cpu.speed else none <;> rfl

/-- And has the polls and the fetch on record. -/
theorem busFetched_recorded (cpu : Cpu) (latest : List Access) (bus : β) :
    busFetched cpu (Recorded.mk latest bus)
      = ⟨(Bus.polling bus ++ fetchAccesses cpu bus).reverse ++ latest, busFetched cpu bus⟩ := by
  rw [busFetched, Bus.poll_recorded, Demand.meet_recorded, accesses_fetch, List.reverse_append,
    List.append_assoc]
  rfl

/-- One opcode is that of the `HALT`. -/
theorem ofOpcode_eq_halt_iff (opcode : UInt8) :
    Instruction.ofOpcode opcode = .halt ↔ opcode = 0x76 := by
  have table : ∀ b : UInt8, Instruction.ofOpcode b = .halt ↔ b = 0x76 :=
    forall_byte (by decide +kernel)
  exact table opcode

/-! ## The discipline -/

/-- The accesses of a call, and whether it failed. -/
structure Disciplined (cpu : Cpu) (bus : β) (o : Outcome (Recorded β)) : Prop where
  /-- Halted, it polls. -/
  idling : cpu.atBoundary = true → cpu.halted = true →
    o.fault = none ∧ o.bus.accesses = Bus.polling bus
  /-- Where it starts to serve an interrupt, it polls, and again to acknowledge it, and then withdraws
  the request of the line that it found; where it found none, it fails. -/
  serving : cpu.atBoundary = true → cpu.serves bus = true →
    let requested := (Bus.interruptBytes (Bus.poll bus).2).2.1
    match (Bus.poll (Bus.poll bus).2).1.first? with
    | some line => o.fault = none ∧ o.bus.accesses
        = Bus.polling bus ++ Bus.polling (Bus.poll bus).2
          ++ [.write requestAddress (requested &&& ~~~line.bits)]
    | none => o.fault = some .noPendingInterrupt
      ∧ o.bus.accesses = Bus.polling bus ++ Bus.polling (Bus.poll bus).2
  /-- Where it starts an instruction, it polls and reads the opcode, and polls again if that is the
  `HALT`.  In this case alone an access can be missing that the bus does not see. -/
  fetching : cpu.atBoundary = true → cpu.halted = false → cpu.serves bus = false →
    o.fault = none ∧ o.bus.accesses
      = Bus.polling bus ++ fetchAccesses cpu bus
        ++ (if opcodeFetched cpu bus = 0x76 then Bus.polling (busFetched cpu bus) else [])
  /-- Inside an instruction and while an interrupt is served, there is one access at most, the one that
  the machine cycle waited for is for. -/
  inside : cpu.atBoundary = false → o.fault = none ∧ o.bus.accesses.length ≤ 1
    ∧ o.bus.accesses = Demand.accesses cpu.demand? bus

variable {cpu : Cpu} {bus : β}

/-- The record of a call that idles. -/
theorem Cpu.accesses_idling (boundary : cpu.suspended = none) (halted : cpu.halted = true) :
    (cpu.step (Recorded.mk [] bus)).fault = none
      ∧ (cpu.step (Recorded.mk [] bus)).bus.accesses = Bus.polling bus := by
  obtain ⟨fault, came⟩ := Cpu.step_idling boundary halted (Recorded.mk [] bus)
  have after : (cpu.step (Recorded.mk [] bus)).bus = _ := congrArg Upshot.bus came
  refine ⟨fault, ?_⟩
  rw [after]
  rfl

/-- The record of a call that starts to serve a line. -/
theorem Cpu.Sound.accesses_serving {line : InterruptSet} (h : cpu.Sound)
    (boundary : cpu.suspended = none) (serves : cpu.serves bus = true)
    (present : (Bus.poll (Bus.poll bus).2).1.first? = some line) :
    (cpu.step (Recorded.mk [] bus)).fault = none ∧ (cpu.step (Recorded.mk [] bus)).bus.accesses
      = Bus.polling bus ++ Bus.polling (Bus.poll bus).2
        ++ [.write requestAddress
          ((Bus.interruptBytes (Bus.poll bus).2).2.1 &&& ~~~line.bits)] := by
  have serves : cpu.serves (Recorded.mk [] bus) = true := serves
  have present : (Bus.poll (Bus.poll (Recorded.mk [] bus)).2).1.first? = some line := present
  obtain ⟨fault, came⟩ := h.step_serving boundary serves present
  have after : (cpu.step (Recorded.mk [] bus)).bus = _ := congrArg Upshot.bus came
  refine ⟨fault, ?_⟩
  rw [after]
  rfl

/-- The record of a call that finds nothing to acknowledge. -/
theorem Cpu.accesses_vanishing (boundary : cpu.suspended = none) (serves : cpu.serves bus = true)
    (gone : (Bus.poll (Bus.poll bus).2).1.isEmpty = true) :
    (cpu.step (Recorded.mk [] bus)).fault = some .noPendingInterrupt
      ∧ (cpu.step (Recorded.mk [] bus)).bus.accesses
        = Bus.polling bus ++ Bus.polling (Bus.poll bus).2 := by
  have serves : cpu.serves (Recorded.mk [] bus) = true := serves
  have gone : (Bus.poll (Bus.poll (Recorded.mk [] bus)).2).1.isEmpty = true := gone
  obtain ⟨fault, after⟩ := Cpu.step_vanishing boundary serves gone
  refine ⟨fault, ?_⟩
  rw [after]
  rfl

/-- The record of a call that fetches. -/
theorem Cpu.Sound.accesses_fetching (h : cpu.Sound) (boundary : cpu.suspended = none)
    (awake : cpu.halted = false) (idle : cpu.serves bus = false) :
    (cpu.step (Recorded.mk [] bus)).fault = none ∧ (cpu.step (Recorded.mk [] bus)).bus.accesses
      = Bus.polling bus ++ fetchAccesses cpu bus
        ++ (if opcodeFetched cpu bus = 0x76 then Bus.polling (busFetched cpu bus) else []) := by
  have idle : cpu.serves (Recorded.mk [] bus) = false := idle
  have instruction : Instruction.ofOpcode (opcodeFetched cpu (Recorded.mk [] bus)) = .halt
      ↔ opcodeFetched cpu bus = 0x76 := by
    rw [opcodeFetched_recorded, ofOpcode_eq_halt_iff]
  by_cases halts : opcodeFetched cpu bus = 0x76
  · obtain ⟨fault, came⟩ := h.step_halting boundary awake idle (instruction.2 halts)
    have after : (cpu.step (Recorded.mk [] bus)).bus = _ := congrArg Upshot.bus came
    refine ⟨fault, ?_⟩
    rw [after, busFetched_recorded, Bus.poll_recorded, if_pos halts, Recorded.accesses,
      List.append_nil, List.reverse_append, List.reverse_reverse, List.reverse_reverse]
  · obtain ⟨fault, came⟩ := h.step_fetching boundary awake idle fun h => halts (instruction.1 h)
    have after : (cpu.step (Recorded.mk [] bus)).bus = _ := congrArg Upshot.bus came
    refine ⟨fault, ?_⟩
    rw [after, busFetched_recorded, if_neg halts, Recorded.accesses, List.append_nil,
      List.reverse_reverse, List.append_nil]

/-- What a call inside an instruction adds to a record. -/
theorem Cpu.Sound.latest_inside {s : Suspension} (h : cpu.Sound) (under : cpu.suspended = some s)
    (b : Recorded β) :
    (cpu.step b).bus.latest = (Demand.accesses cpu.demand? b.inner).reverse ++ b.latest := by
  have after : (cpu.step b).bus = _ := congrArg Upshot.bus (h.step_inside under b).2
  rw [after]
  exact congrArg Recorded.latest (Demand.meet_recorded _ _ _)

/-- The record of a call inside an instruction. -/
theorem Cpu.Sound.accesses_inside (h : cpu.Sound) (inside : cpu.atBoundary = false) (bus : β) :
    (cpu.step (Recorded.mk [] bus)).fault = none
      ∧ (cpu.step (Recorded.mk [] bus)).bus.accesses = Demand.accesses cpu.demand? bus := by
  obtain ⟨s, under⟩ := Cpu.atBoundary_eq_false_iff.1 inside
  refine ⟨(h.step_inside under _).1, ?_⟩
  rw [Recorded.accesses, h.latest_inside under, List.append_nil, List.reverse_reverse]

/-- Every call that a host can make keeps to its accesses, on every bus. -/
theorem Reachable.disciplined (h : Reachable cpu) (bus : β) :
    Disciplined cpu bus (cpu.step (Recorded.mk [] bus)) := by
  have sound := h.sound
  have suspended_eq (boundary : cpu.atBoundary = true) : cpu.suspended = none :=
    Cpu.atBoundary_eq_true_iff.1 boundary
  refine ⟨?_, ?_, ?_, ?_⟩
  · intro boundary halted
    exact Cpu.accesses_idling (suspended_eq boundary) halted
  · intro boundary serves requested
    cases present : (Bus.poll (Bus.poll bus).2).1.first? with
    | some line => exact sound.accesses_serving (suspended_eq boundary) serves present
    | none =>
      have gone := (InterruptSet.first?_eq_none_iff _).1 present
      exact Cpu.accesses_vanishing (suspended_eq boundary) serves gone
  · intro boundary awake idle
    exact sound.accesses_fetching (suspended_eq boundary) awake idle
  · intro inside
    obtain ⟨fault, accesses⟩ := sound.accesses_inside inside bus
    exact ⟨fault, accesses ▸ Demand.length_accesses_le _ bus, accesses⟩

end Accesses

/-- A `HALT` makes five: a poll, its opcode, and a poll. -/
theorem Reachable.disciplined_halt :
    Reachable (.new .dmg true)
      ∧ ((Cpu.new .dmg true).step (Recorded.mk [] (openBusExcept 0x0100 0x76))).bus.accesses
        = [.read 0xFFFF 0xFF, .read 0xFF0F 0xFF, .read 0x0100 0x76, .read 0xFFFF 0xFF,
          .read 0xFF0F 0xFF] := by
  have reachable : Reachable (.new .dmg true) := .new .dmg true
  have disciplined := Reachable.disciplined reachable (openBusExcept 0x0100 0x76)
  refine ⟨reachable, (disciplined.fetching rfl rfl (by decide)).2.trans ?_⟩
  decide

end Sm83
