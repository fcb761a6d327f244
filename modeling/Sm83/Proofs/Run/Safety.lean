import Sm83.Bus.Blocked
import Sm83.Bus.Scripted
import Sm83.Memory
import Sm83.Proofs.Microstep.Depth
import Sm83.Proofs.Run.Call

/-!
# No run goes wrong

Everything that a host can do with a processor, and what is true whatever it does.

* `Reachable` — the processors that calls, resets and a host writing to registers can lead to, with
  another bus for every call.
* `Cpu.Sound` — the invariant: at a boundary the scratch stack is empty, and a suspended instruction
  is balanced at its depth and stands on the microcode.
* `Vanishes` — the one way to a fault: the bus reports an interrupt that is requested and enabled, and
  reports none when it is acknowledged.
* `SafeCall` — what is promised of a call, and `Reachable.safeCall`, that the promise is kept.
-/

namespace Sm83

open Machine

/-! ## What a host can do -/

/-- The processors that a host can bring about. -/
inductive Reachable : Cpu → Prop
  | new (model : Model) (skipBoot : Bool) : Reachable (.new model skipBoot)
  /-- A call, on whatever bus there is this time.  It may end with a fault and be followed by
  others. -/
  | step {cpu : Cpu} (h : Reachable cpu) {β : Type} [Bus β] (bus : β) : Reachable (cpu.step bus).cpu
  | reset {cpu : Cpu} (h : Reachable cpu) (skipBoot : Bool) : Reachable (cpu.reset skipBoot)
  /-- The host writes all registers. -/
  | setRegs {cpu : Cpu} (h : Reachable cpu) (regs : Registers) : Reachable { cpu with regs := regs }
  /-- The host enables or disables interrupts. -/
  | setIme {cpu : Cpu} (h : Reachable cpu) (ime : Bool) : Reachable { cpu with ime := ime }
  /-- The host sets the speed switch, where there is one. -/
  | setSpeed {cpu : Cpu} (h : Reachable cpu) (speed : SpeedSwitch) :
    Reachable { cpu with speed := cpu.speed.map fun _ => speed }

/-- The invariant between calls. -/
structure Cpu.Sound (cpu : Cpu) : Prop where
  empty : cpu.suspended = none → cpu.scratch.depth = 0
  within : ∀ s, cpu.suspended = some s →
    s.position.Balanced cpu.scratch.depth ∧ s.position.OnMicrocode

/-- At a boundary nothing else is asked. -/
theorem Cpu.Sound.of_boundary {cpu : Cpu} (boundary : cpu.atBoundary = true)
    (empty : cpu.scratch.isEmpty = true) : cpu.Sound := by
  refine ⟨fun _ => beq_iff_eq.1 empty, fun s under => ?_⟩
  rw [Option.isNone_iff_eq_none.1 boundary] at under
  cases under

theorem Cpu.Sound.toList_eq_nil {cpu : Cpu} (h : cpu.Sound) (boundary : cpu.suspended = none) :
    cpu.scratch.toList = [] :=
  List.eq_nil_of_length_eq_zero (cpu.scratch.length_toList.trans (h.empty boundary))

/-! ## Inside a call -/

section Call

variable {β : Type} [Bus β]

/-- The bus reports an interrupt to a processor that will serve it, and reports none to its
acknowledge. -/
def Vanishes (cpu : Cpu) (bus : β) : Prop :=
  cpu.atBoundary = true ∧ cpu.serves bus = true ∧ (Bus.poll (Bus.poll bus).2).1.isEmpty = true

/-- What is true at every moment of a call. -/
inductive Solid (m₀ : Machine β) : Position → Machine β → Prop
  | balanced {p : Position} {m : Machine β} (micro : p.OnMicrocode)
    (h : p.Balanced m.cpu.scratch.depth) (calm : ¬ Vanishes m₀.cpu m₀.bus) : Solid m₀ p m
  /-- An interrupt is to be acknowledged. -/
  | serving (boundary : m₀.cpu.suspended = none) (serves : m₀.cpu.serves m₀.bus = true)
    (h : m₀.cpu.scratch.depth = 0) :
    Solid m₀ interruptMicroprogram.position ⟨m₀.cpu.choosing, (Bus.poll m₀.bus).2, m₀.events⟩

/-- How a call can fail. -/
def Failed (m₀ : Machine β) (fault : Fault) (m : Machine β) : Prop :=
  fault = .noPendingInterrupt ∧ Vanishes m₀.cpu m₀.bus ∧ m.cpu = disarm m₀.cpu.choosing

/-- A call that is over. -/
def Finished (m₀ m : Machine β) : Prop :=
  m.cpu.scratch.depth = 0 ∧ ¬ Vanishes m₀.cpu m₀.bus

omit [Bus β] in
theorem InterruptSet.first?_eq_none_iff (s : InterruptSet) :
    s.first? = none ↔ s.isEmpty = true := by
  rw [first?]
  split
  next h => exact ⟨fun _ => h, fun _ => rfl⟩
  next h => exact ⟨fun e => absurd e (Option.some_ne_none _), fun e => absurd e h⟩

/-- Where an interrupt is served, the boundary has found a line. -/
theorem Cpu.first?_of_serves {cpu : Cpu} {bus : β} (serves : cpu.serves bus = true) :
    ∃ line, (Bus.poll bus).1.first? = some line := by
  refine Option.ne_none_iff_exists'.1 fun gone => ?_
  have gone := (InterruptSet.first?_eq_none_iff _).1 gone
  rw [Cpu.serves, gone, Bool.not_true, Bool.and_false] at serves
  cases serves

omit [Bus β] in
/-- Serving an interrupt begins with the acknowledge. -/
theorem interrupt_position : interruptMicroprogram.position
    = ⟨.control .acknowledge :: interruptMicroprogram.steps.tail, .exit .retire⟩ := rfl

/-- Where no line is both requested and enabled, there is nothing to acknowledge. -/
theorem advance_interrupt_of_isEmpty {m : Machine β} (h : (Bus.poll m.bus).1.isEmpty = true) :
    interruptMicroprogram.position.advance m
      = .error .noPendingInterrupt ⟨disarm m.cpu, (Bus.poll m.bus).2, m.events⟩ := by
  have nothing := (InterruptSet.first?_eq_none_iff _).2 h
  have failed : acknowledge m
      = .error .noPendingInterrupt ⟨disarm m.cpu, (Bus.poll m.bus).2, m.events⟩ := by
    simp only [Bus.poll, Bus.interruptBytes] at nothing
    simp only [acknowledge, Bind.bind, EStateM.bind, modifyCpu, readBus, nothing]
    rfl
  change EStateM.bind acknowledge _ m = _
  rw [EStateM.bind, failed]

/-- Where there is a line, the address of its handler is left. -/
theorem advance_interrupt_of_not_isEmpty {m : Machine β} (empty : m.cpu.scratch.depth = 0)
    (h : (Bus.poll m.bus).1.isEmpty = false) :
    ∃ m', interruptMicroprogram.position.advance m
        = .ok (some ⟨interruptMicroprogram.steps.tail, .exit .retire⟩) m'
      ∧ m'.cpu.scratch.depth = 2 := by
  have acts (xs : List UInt8) (c : Core) : ∃ w c' o',
      Control.acknowledge.act ⟨xs, c, m.cpu.speed, m.bus, m.events⟩
        = some ⟨onTop w xs, c', o'⟩ := by
    simp only [Control.act]
    split
    next nothing =>
      have isEmpty : (Bus.poll m.bus).1.isEmpty = true :=
        (InterruptSet.first?_eq_none_iff _).1 nothing
      exact absurd (isEmpty.symm.trans h) Bool.true_eq_false.mp
    next line _ => exact ⟨_, _, _, rfl⟩
  have shown : m.scene [] = ⟨[], m.cpu.core, m.cpu.speed, m.bus, m.events⟩ := by
    rw [Machine.scene, List.eq_nil_of_length_eq_zero (m.cpu.scratch.length_toList.trans empty),
      List.nil_append]
  obtain ⟨w, c', o', acts⟩ := acts [] m.cpu.core
  have moves : interruptMicroprogram.position.act (m.scene [])
      = some (some ⟨interruptMicroprogram.steps.tail, .exit .retire⟩, ⟨onTop w [], c', o'⟩) := by
    rw [shown, interrupt_position, Position.act, MicroStep.act, acts]
    rfl
  obtain ⟨m', e, hm, -⟩ := Position.advance_performs moves (Nat.le_of_ble_eq_true rfl) [] m rfl
  exact ⟨m', e, Machine.depth_of_scene hm⟩

/-- The acknowledge finds a line, or the interrupt has vanished. -/
theorem serving_leads {m₀ : Machine β} (boundary : m₀.cpu.suspended = none)
    (serves : m₀.cpu.serves m₀.bus = true) (h : m₀.cpu.scratch.depth = 0) :
    Leads (Next (Solid m₀) (Finished m₀)) (Failed m₀)
      (interruptMicroprogram.position.advance
        ⟨m₀.cpu.choosing, (Bus.poll m₀.bus).2, m₀.events⟩) := by
  let m : Machine β := ⟨m₀.cpu.choosing, (Bus.poll m₀.bus).2, m₀.events⟩
  cases e : (Bus.poll (Bus.poll m₀.bus).2).1.isEmpty with
  | true =>
    rw [advance_interrupt_of_isEmpty (m := m) e]
    exact ⟨rfl, ⟨by rw [Cpu.atBoundary, boundary]; rfl, serves, e⟩, rfl⟩
  | false =>
    have calm : ¬ Vanishes m₀.cpu m₀.bus := fun vanishes => by
      have := vanishes.2.2
      rw [e] at this
      exact Bool.false_ne_true this
    have empty : m.cpu.scratch.depth = 0 := by rw [Cpu.choosing_scratch, h]
    obtain ⟨m', e', hd⟩ := advance_interrupt_of_not_isEmpty empty e
    rw [e']
    exact .balanced ⟨_, .interrupt, List.suffix_cons _ _⟩ (hd ▸ balanced_interrupt) calm

/-- Every move keeps what is true at every moment. -/
theorem Solid.advance {m₀ m : Machine β} {p : Position} (h : Solid m₀ p m) :
    Leads (Next (Solid m₀) (Finished m₀)) (Failed m₀) (p.advance m) := by
  cases h with
  | balanced micro h calm =>
    obtain ⟨r, m', e, -, hn, -⟩ := Position.advance_of_balanced h
    rw [e]
    match r, hn with
    | none, hn => exact ⟨hn, calm⟩
    | some q, hn => exact .balanced (micro.successor (Position.successor_of_advance e)) hn calm
  | serving boundary serves h => exact serving_leads boundary serves h

/-- A call of a sound processor begins well. -/
theorem Cpu.Sound.enter {m₀ : Machine β} (h : m₀.cpu.Sound) :
    Leads (Next (Solid m₀) (Finished m₀)) (Failed m₀) (enter m₀) := by
  cases hs : m₀.cpu.suspended with
  | some s =>
    rw [enter_of_suspended hs]
    have calm : ¬ Vanishes m₀.cpu m₀.bus := fun vanishes => by
      have := vanishes.1
      rw [Cpu.atBoundary, hs] at this
      exact Bool.false_ne_true this
    obtain ⟨balanced, micro⟩ := h.within s hs
    exact .balanced micro balanced calm
  | none =>
    have empty : m₀.cpu.choosing.scratch.depth = 0 := by
      rw [Cpu.choosing_scratch, h.empty hs]
    cases serves : m₀.cpu.serves m₀.bus with
    | true =>
      rw [enter_of_serves hs serves]
      exact .serving hs serves (h.empty hs)
    | false =>
      have calm : ¬ Vanishes m₀.cpu m₀.bus := fun vanishes => by
        have := vanishes.2.1
        rw [serves] at this
        exact Bool.false_ne_true this
      cases halted : m₀.cpu.halted with
      | true =>
        rw [enter_of_halted hs halted]
        exact ⟨empty, calm⟩
      | false =>
        rw [enter_of_fetches hs halted serves]
        exact .balanced (.of_isRow .fetch) (empty ▸ balanced_fetch) calm

/-- What is true at every moment is true at each. -/
theorem Moment.solid {m₀ m : Machine β} {k : Nat} {p : Position} (h : m₀.cpu.Sound)
    (moment : Moment m₀ k p m) : Solid m₀ p m := by
  induction moment with
  | entered begins =>
    have led := h.enter
    rw [begins] at led
    exact led
  | moved _ _ move ih | ticked _ _ move ih =>
    have led := ih.advance
    rw [move] at led
    exact led

theorem Solid.onMicrocode {m₀ m : Machine β} {p : Position} (h : Solid m₀ p m) : p.OnMicrocode := by
  cases h with
  | balanced micro _ _ => exact micro
  | serving _ _ _ => exact .of_isRow .interrupt

theorem Solid.depth_le {m₀ m : Machine β} {p : Position} (h : Solid m₀ p m) :
    m.cpu.scratch.depth ≤ deepest := by
  cases h with
  | balanced _ h _ => exact h.le_deepest
  | serving _ _ h =>
    have empty : m₀.cpu.choosing.scratch.depth = 0 := by
      rw [Cpu.choosing_scratch, h]
    exact empty ▸ Nat.zero_le _

/-- A call of a sound processor passes moments and stops at one that waits, or finishes, or fails
where an interrupt has vanished. -/
theorem Cpu.Sound.cycle {m₀ : Machine β} (h : m₀.cpu.Sound) :
    Leads (fun _ => Left (fun p m => Moment m₀ 0 p m ∧ p.waiting = true) (Finished m₀)) (Failed m₀)
      (cycle m₀) := by
  refine cycle_leads (P := Moment m₀) ?_ ?_ (fun p m moment => (moment.solid h).onMicrocode) ?_
  · intro k p m moment instant
    refine (moment.solid h).advance.imp fun r m' e h' => ?_
    match r with
    | none => exact h'
    | some q => exact .moved moment instant e
  · intro p m moment waits
    refine (moment.solid h).advance.imp fun r m' e h' => ?_
    match r with
    | none => exact h'
    | some q => exact .ticked moment waits e
  · refine h.enter.imp fun r m' e h' => ?_
    match r with
    | none => exact h'
    | some p => exact .entered e

/-! ## What a call leaves -/

/-- A moment that waits for a machine cycle is balanced. -/
theorem Solid.sound {m₀ m : Machine β} {s : Suspension} (h : Solid m₀ s.position m) :
    ({ m.cpu with suspended := some s } : Cpu).Sound := by
  generalize hp : s.position = p at h
  cases h with
  | balanced micro h _ =>
    refine ⟨fun e => absurd e (Option.some_ne_none _), fun s' e => ?_⟩
    cases e
    exact hp ▸ ⟨h, micro⟩
  | serving => cases hp

/-- Where a machine cycle is waited for, no interrupt has vanished. -/
theorem Solid.calm {m₀ m : Machine β} {p : Position} (h : Solid m₀ p m) (waits : p.waiting = true) :
    ¬ Vanishes m₀.cpu m₀.bus := by
  cases h with
  | balanced _ _ calm => exact calm
  | serving => cases waits

/-- What a fault leaves. -/
structure Aborted (cpu : Cpu) : Prop where
  boundary : cpu.atBoundary = true
  empty : cpu.scratch.isEmpty = true
  ime : cpu.ime = false
  imePending : cpu.imePending = false
  imeDelay : cpu.imeDelay = false
  haltBug : cpu.haltBug = false

theorem Failed.aborted {m₀ m : Machine β} {fault : Fault} (h : m₀.cpu.Sound)
    (failed : Failed m₀ fault m) : Aborted m.cpu := by
  obtain ⟨-, ⟨boundary, -⟩, e⟩ := failed
  have empty : m₀.cpu.scratch.depth = 0 := h.empty (Option.isNone_iff_eq_none.1 boundary)
  rw [e, disarm, Cpu.choosing, commitIme_eq]
  refine ⟨rfl, ?_, rfl, rfl, rfl, rfl⟩
  rw [ScratchStack.isEmpty, empty]
  rfl

theorem Aborted.sound {cpu : Cpu} (h : Aborted cpu) : cpu.Sound := .of_boundary h.boundary h.empty

/-- What is left between calls is sound. -/
theorem Cpu.Sound.step {cpu : Cpu} (h : cpu.Sound) (bus : β) : (cpu.step bus).cpu.Sound := by
  have led : Leads _ _ (Machine.cycle ⟨cpu, bus, []⟩) := Sound.cycle h
  refine Cpu.step_of_left (Φ := fun o => o.cpu.Sound) led ?_ ?_ ?_
  · exact fun s m going => (going.1.solid h).sound
  · exact fun m finished => ⟨fun _ => finished.1, fun s e => absurd e.symm (Option.some_ne_none _)⟩
  · exact fun fault m failed => (failed.aborted h).sound

theorem Reachable.sound {cpu : Cpu} (h : Reachable cpu) : cpu.Sound := by
  induction h with
  | new model skipBoot =>
    exact ⟨fun _ => rfl, fun s e => absurd e.symm (Option.some_ne_none _)⟩
  | step _ bus ih => exact ih.step bus
  | reset _ skipBoot _ => exact ⟨fun _ => rfl, fun s e => absurd e.symm (Option.some_ne_none _)⟩
  | setRegs _ _ ih | setIme _ _ ih | setSpeed _ _ ih => exact ⟨ih.empty, ih.within⟩

/-! ## The promise -/

/-- How a call may end. -/
structure Ended (cpu : Cpu) (bus : β) (o : Outcome β) : Prop where
  /-- Where the instruction goes on, the call has stopped at a moment of its own. -/
  last : ∀ s, o.cpu.suspended = some s →
    ∃ m, Moment ⟨cpu, bus, []⟩ 0 s.position m ∧ o.cpu = { m.cpu with suspended := some s }
  /-- There is one way to fail, and nothing goes on from there. -/
  fault : o.fault = none ∧ ¬ Vanishes cpu bus
    ∨ o.fault = some .noPendingInterrupt ∧ Vanishes cpu bus ∧ Aborted o.cpu

theorem Cpu.Sound.ended {cpu : Cpu} (h : cpu.Sound) (bus : β) : Ended cpu bus (cpu.step bus) := by
  have led : Leads _ _ (Machine.cycle ⟨cpu, bus, []⟩) := Sound.cycle h
  refine Cpu.step_of_left led ?_ ?_ ?_
  · rintro s m ⟨moment, waits⟩
    refine ⟨fun s' hs => ?_, .inl ⟨rfl, (moment.solid h).calm waits⟩⟩
    cases hs
    exact ⟨m, moment, rfl⟩
  · exact fun m finished => ⟨fun s e => absurd e.symm (Option.some_ne_none s), .inl ⟨rfl, finished.2⟩⟩
  · intro fault m failed
    have aborted := failed.aborted h
    refine ⟨fun s hs => ?_, .inr ⟨congrArg some failed.1, failed.2.1, aborted⟩⟩
    have boundary := Option.isNone_iff_eq_none.1 aborted.boundary
    exact absurd (hs.symm.trans boundary) (Option.some_ne_none s)

/-- What is promised of a call. -/
structure SafeCall (cpu : Cpu) (bus : β) : Prop where
  /-- The scratch stack is never deeper, neither between calls nor inside the call. -/
  depth_le : cpu.scratch.depth ≤ deepest ∧
    ∀ k p m, Moment ⟨cpu, bus, []⟩ k p m → m.cpu.scratch.depth ≤ deepest
  /-- At a boundary it is empty. -/
  empty : cpu.atBoundary = true → cpu.scratch.isEmpty = true
  /-- What is carried out are the rows of the microcode, from their beginnings to their ends; a branch
  is left with the move that evaluates its condition. -/
  micro : ∀ k p m, Moment ⟨cpu, bus, []⟩ k p m → p.OnMicrocode
  ended : Ended cpu bus (cpu.step bus)

/-- Whatever a host has done, the next call is safe on every bus. -/
theorem Reachable.safeCall {cpu : Cpu} (h : Reachable cpu) (bus : β) : SafeCall cpu bus := by
  have sound := h.sound
  have solid {k : Nat} {p : Position} {m : Machine β} (moment : Moment ⟨cpu, bus, []⟩ k p m) :
      Solid ⟨cpu, bus, []⟩ p m := moment.solid sound
  refine ⟨⟨?_, fun k p m moment => (solid moment).depth_le⟩, fun boundary => ?_,
    fun k p m moment => (solid moment).onMicrocode, sound.ended bus⟩
  · cases hs : cpu.suspended with
    | none => exact sound.empty hs ▸ Nat.zero_le _
    | some s => exact (sound.within s hs).1.le_deepest
  · rw [ScratchStack.isEmpty, sound.empty (Option.isNone_iff_eq_none.1 boundary)]
    rfl

end Call

/-- A bus that can be reached nowhere and answers as such. -/
def openBus : Bus.Blocked Memory := ⟨[⟨0x0000, 0xFFFF⟩], .zero⟩

/-- The same with one byte there to be read, once. -/
def openBusExcept (a : UInt16) (value : UInt8) : Bus.Scripted (Bus.Blocked Memory) :=
  ⟨[(a, value)], openBus⟩

/-- A request that is there for the first poll and gone for the second. -/
def vanishingRequest : Bus.Scripted (Bus.Blocked Memory) :=
  ⟨[(enableAddress, 0x01), (requestAddress, 0x01), (enableAddress, 0x01), (requestAddress, 0x00)],
    openBus⟩

/-- A host that enables interrupts on such a bus brings about the fault, and is promised the rest. -/
theorem Reachable.safeCall_vanishingRequest :
    Reachable { Cpu.new .dmg true with ime := true }
      ∧ SafeCall { Cpu.new .dmg true with ime := true } vanishingRequest
      ∧ (Cpu.step { Cpu.new .dmg true with ime := true } vanishingRequest).fault
        = some .noPendingInterrupt := by
  have reachable := Reachable.setIme (.new .dmg true) true
  have safe := Reachable.safeCall reachable vanishingRequest
  have vanishes : Vanishes { Cpu.new .dmg true with ime := true } vanishingRequest :=
    ⟨rfl, by decide, by decide⟩
  refine ⟨reachable, safe, ?_⟩
  rcases safe.ended.fault with ⟨-, calm⟩ | ⟨fault, -⟩
  · exact absurd vanishes calm
  · exact fault

end Sm83
