import Mathlib.Logic.Function.Iterate
import Sm83.Proofs.Interrupts.Dispatch
import Sm83.Proofs.Interrupts.History
import Sm83.Proofs.Interrupts.Requests
import Sm83.Proofs.Run.Accesses
import Sm83.Proofs.Run.Spared

/-!
# Halted and awake again

A `HALT` has two outcomes, and which of them it has is decided by its own poll.  A halted processor
spends its calls with polls; the enabling of interrupts still moves on at each of them, for they are
boundaries.  The poll that finds an interrupt ends the halt whether or not interrupts are enabled, and
uses up the call: what to do about the interrupt is decided by the call after it.

* `Cpu.Resting` — the invariant: a processor that is halted, or has the HALT bug armed, is at a
  boundary, and is not both.
* `Cpu.idled` — a processor after some idle calls.  `Cpu.after_of_quiet`: as long as no poll finds
  anything, nothing else happens, whatever is done to the bus between the calls.
* `Woken` — the call that finds an interrupt, the one after it, and those that serve it.
* `Reachable.haltsAndWakes` — so it is with every `HALT` of every run.
-/

namespace Sm83

open Machine
open Bus (Recorded)

/-! ## At rest -/

/-- Halted or under the HALT bug a processor is at a boundary, and it is not both. -/
structure Cpu.Resting (cpu : Cpu) : Prop where
  halted : cpu.halted = true → cpu.suspended = none ∧ cpu.haltBug = false
  armed : cpu.haltBug = true → cpu.suspended = none

section Call

variable {β : Type} [Bus β] {cpu : Cpu} {bus : β}

/-- Neither halted nor under the bug, it may be anywhere. -/
theorem Cpu.Resting.of_neither (awake : cpu.halted = false) (clear : cpu.haltBug = false) :
    cpu.Resting :=
  ⟨fun halted => absurd (halted.symm.trans awake) Bool.true_eq_false.mp,
    fun armed => absurd (armed.symm.trans clear) Bool.true_eq_false.mp⟩

/-- What a `HALT` leads to: its own poll decides between two outcomes. -/
structure Decided (cpu : Cpu) (bus : β) : Prop where
  faultless : (cpu.step bus).fault = none
  boundary : (cpu.step bus).cpu.suspended = none
  /-- It halts the processor if interrupts are enabled or none is found, -/
  halted : (cpu.step bus).cpu.halted
    = ((commitIme cpu).ime || (Bus.poll (busFetched cpu bus)).1.isEmpty)
  /-- and arms the HALT bug otherwise. -/
  bug : (cpu.step bus).cpu.haltBug
    = !((commitIme cpu).ime || (Bus.poll (busFetched cpu bus)).1.isEmpty)
  gate : (cpu.step bus).cpu.gate = cpu.gate.commit

theorem Cpu.Sound.decided (h : cpu.Sound) (boundary : cpu.suspended = none)
    (awake : cpu.halted = false) (idle : cpu.serves bus = false)
    (halts : Instruction.ofOpcode (opcodeFetched cpu bus) = .halt) : Decided cpu bus := by
  obtain ⟨w, acts, ends, -⟩ := h.halting_endsAt boundary awake idle halts
  obtain ⟨faultless, came⟩ := h.step_halting boundary awake idle halts
  have ime : (commitIme cpu).ime = cpu.gate.commit.ime := by
    rw [commitIme_eq]
    rfl
  have halted : (cpu.step bus).cpu.halted
      = (cpu.gate.commit.ime || (Bus.poll (busFetched cpu bus)).1.isEmpty) :=
    congrArg Upshot.halted came
  have gate : (cpu.step bus).cpu.due = cpu.gate.commit := congrArg Upshot.gate came
  rw [Cpu.due_of_boundary ends.suspended] at gate
  refine ⟨faultless, ends.suspended, ime ▸ halted, ?_, gate⟩
  rw [ime, ← halted]
  -- of the two bits the one that is not set stays clear
  have shown : (cpu.step bus).cpu.core = w.core := congrArg Scene.core ends.scene
  have still : (sceneFetched cpu bus).core.halted = false := by
    rw [sceneFetched_core, commitIme_eq]
    exact awake
  have clear : (sceneFetched cpu bus).core.haltBug = false := by rw [sceneFetched_core]
  show (cpu.step bus).cpu.core.haltBug = !(cpu.step bus).cpu.core.halted
  rw [shown]
  cases acts
  split
  · exact clear
  · exact (congrArg (!·) still).symm

/-- No call disturbs that. -/
theorem Cpu.Resting.step (h : cpu.Resting) (sound : cpu.Sound) (bus : β) :
    (cpu.step bus).cpu.Resting := by
  cases cpu.callKind bus with
  | inside s under =>
    have nowhere (boundary : cpu.suspended = none) : False :=
      Option.some_ne_none s (under.symm.trans boundary)
    have halted : (cpu.step bus).cpu.halted = cpu.halted :=
      congrArg Upshot.halted (sound.step_inside under bus).2
    refine ⟨fun still => ?_, fun armed => ?_⟩
    · exact (nowhere (h.halted (halted.symm.trans still)).1).elim
    · exact (nowhere (h.armed ((sound.spares_inside under bus).1 armed))).elim
  | idling boundary halted =>
    rw [Cpu.step_of_idles boundary halted]
    refine ⟨fun _ => ⟨rfl, ?_⟩, fun _ => rfl⟩
    show cpu.choosing.haltBug = false
    rw [choosing, commitIme_eq]
    exact (h.halted halted).2
  | serving boundary serves line present =>
    exact .of_neither (congrArg Upshot.halted (sound.step_serving boundary serves present).2)
      (sound.spares_serving boundary serves present).1
  | vanishing boundary serves gone =>
    rw [Cpu.step_of_vanishes boundary serves gone]
    exact ⟨fun _ => ⟨cpu.choosing_suspended, rfl⟩, fun _ => cpu.choosing_suspended⟩
  | fetching boundary awake idle =>
    by_cases halts : Instruction.ofOpcode (opcodeFetched cpu bus) = .halt
    · have decided := sound.decided boundary awake idle halts
      refine ⟨fun stays => ⟨decided.boundary, ?_⟩, fun _ => decided.boundary⟩
      rw [decided.bug, ← decided.halted, stays]
      rfl
    · exact .of_neither ((sound.step_begins boundary awake idle).2.2.2 halts)
        (sound.disarmed_of_fetching boundary awake idle halts)

end Call

theorem Reachable.resting {cpu : Cpu} (h : Reachable cpu) : cpu.Resting := by
  induction h with
  | new model skipBoot | reset _ skipBoot _ => exact .of_neither rfl rfl
  | step h bus ih => exact ih.step h.sound bus
  | setRegs _ _ ih | setIme _ _ ih | setSpeed _ _ ih => exact ⟨ih.halted, ih.armed⟩

/-! ## Idling -/

/-- The processor after `n` calls in which it did nothing: each was a boundary and a cycle. -/
def Cpu.idled (n : Nat) (cpu : Cpu) : Cpu := { commitIme^[n] cpu with cycles := cpu.cycles + n }

/-- Boundaries move nothing on but the gate. -/
theorem Cpu.idled_eq (n : Nat) (cpu : Cpu) : cpu.idled n = { cpu with
    ime := (Gate.commit^[n] cpu.gate).ime
    imePending := (Gate.commit^[n] cpu.gate).pending
    imeDelay := (Gate.commit^[n] cpu.gate).delay
    cycles := cpu.cycles + n } := by
  have gate : commitIme^[n] cpu = { cpu with
      ime := (Gate.commit^[n] cpu.gate).ime
      imePending := (Gate.commit^[n] cpu.gate).pending
      imeDelay := (Gate.commit^[n] cpu.gate).delay } := by
    induction n with
    | zero => rfl
    | succ n ih =>
      rw [Function.iterate_succ_apply', Function.iterate_succ_apply', ih, commitIme_eq]
      rfl
  rw [idled, gate]

theorem Cpu.idled_still {cpu : Cpu} (boundary : cpu.suspended = none) (halted : cpu.halted = true)
    (n : Nat) : (cpu.idled n).suspended = none ∧ (cpu.idled n).halted = true := by
  rw [idled_eq]
  exact ⟨boundary, halted⟩

/-- One idle call more. -/
theorem Cpu.idled_succ {cpu : Cpu} (boundary : cpu.suspended = none) (n : Nat) :
    { (cpu.idled n).choosing with suspended := none } = cpu.idled (n + 1) := by
  rw [choosing, commitIme_eq, idled_eq, idled_eq, Function.iterate_succ_apply', boundary]
  rfl

section Runs

variable {β : Type} [Bus β] {cpu : Cpu} {buses : Nat → β}

/-- What a call does to the bus that only polls. -/
structure OnlyPolls (cpu : Cpu) (bus : β) : Prop where
  faultless : (cpu.step bus).fault = none
  leaves : (cpu.step bus).bus = (Bus.poll bus).2
  accesses : (cpu.step (Recorded.mk [] bus)).bus.accesses = Bus.polling bus
  /-- No instruction begins, and no interrupt is served. -/
  nothing : milestones (cpu.step bus).events = []

theorem OnlyPolls.of_halted (boundary : cpu.suspended = none) (halted : cpu.halted = true) (bus : β) :
    OnlyPolls cpu bus := by
  obtain ⟨faultless, came⟩ := Cpu.step_idling boundary halted bus
  exact ⟨faultless, congrArg Upshot.bus came, (Cpu.accesses_idling boundary halted).2,
    congrArg Upshot.milestones came⟩

/-- Up to call `n` no poll finds an interrupt. -/
def Quiet (n : Nat) (buses : Nat → β) : Prop := ∀ k < n, (Bus.poll (buses k)).1.isEmpty = true

/-- As long as no poll finds an interrupt, a halted processor idles. -/
theorem Cpu.after_of_quiet (boundary : cpu.suspended = none) (halted : cpu.halted = true) {n : Nat}
    (quiet : Quiet n buses) : cpu.after buses n = cpu.idled n := by
  induction n with
  | zero => rfl
  | succ n ih =>
    have still := Cpu.idled_still boundary halted n
    rw [Cpu.after, ih fun k hk => quiet k (Nat.lt_succ_of_lt hk), Cpu.step_of_idles still.1 still.2,
      quiet n (Nat.lt_succ_self n), ← Cpu.idled_succ boundary]
    have halted : (cpu.idled n).choosing.halted = true := (Cpu.choosing_halted _).trans still.2
    rw [← halted]

/-! ## Waking -/

omit [Bus β]

/-- The processor that idled until the last of `n` calls woke it. -/
def Cpu.wakened (n : Nat) (cpu : Cpu) : Cpu := { cpu.idled n with halted := false }

theorem Cpu.wakened_eq (n : Nat) (cpu : Cpu) : cpu.wakened n = { cpu with
    ime := (Gate.commit^[n] cpu.gate).ime
    imePending := (Gate.commit^[n] cpu.gate).pending
    imeDelay := (Gate.commit^[n] cpu.gate).delay
    halted := false
    cycles := cpu.cycles + n } := by rw [wakened, idled_eq]

/-- The boundary after that is one more that hands the gate over. -/
theorem Cpu.commitIme_wakened (n : Nat) (cpu : Cpu) :
    (commitIme (cpu.wakened n)).ime = (commitIme^[n + 1] cpu).ime := by
  rw [Function.iterate_succ_apply', commitIme_eq, commitIme_eq]
  rfl

variable [Bus β]

/-- A poll that finds an interrupt wakes the processor. -/
theorem Cpu.after_of_found (boundary : cpu.suspended = none) (halted : cpu.halted = true) {n : Nat}
    (quiet : Quiet n buses) (found : (Bus.poll (buses n)).1.isEmpty = false) :
    cpu.after buses (n + 1) = cpu.wakened (n + 1) := by
  have still := Cpu.idled_still boundary halted n
  rw [Cpu.after, Cpu.after_of_quiet boundary halted quiet, Cpu.step_of_idles still.1 still.2, found,
    Cpu.wakened, ← Cpu.idled_succ boundary]

/-- A processor that was woken serves an interrupt if by then they are enabled and there still is
one. -/
theorem Cpu.wakened_serves (n : Nat) (cpu : Cpu) (bus : β) :
    (cpu.wakened n).serves bus = true
      ↔ (commitIme^[n + 1] cpu).ime = true ∧ Bus.HasInterrupt bus := by
  rw [serves, commitIme_wakened, Bus.hasInterrupt_iff, show (cpu.wakened n).halted = false from rfl,
    Bool.not_false, Bool.true_and, Bool.and_eq_true, Bool.not_eq_true']

/-- What becomes of a halted processor when the poll of call `n` is the first to find an interrupt. -/
structure Woken (n : Nat) (cpu : Cpu) (buses : Nat → β) : Prop where
  /-- The call ends the halt and does nothing else. -/
  wakes : cpu.after buses (n + 1) = cpu.wakened (n + 1)
  polls : OnlyPolls (cpu.after buses n) (buses n)
  /-- The next call takes the ordinary decision.  It starts to serve an interrupt if by then they are
  enabled and there still is one; -/
  dispatches : (commitIme^[n + 2] cpu).ime = true → Bus.HasInterrupt (buses (n + 1)) →
    StartsDispatch ((cpu.after buses (n + 1)).step (buses (n + 1)))
  /-- otherwise it fetches the opcode at the program counter, which has not moved. -/
  fetches : ¬ ((commitIme^[n + 2] cpu).ime = true ∧ Bus.HasInterrupt (buses (n + 1))) →
    ((cpu.after buses (n + 1)).step (buses (n + 1))).fault = none
      ∧ milestones ((cpu.after buses (n + 1)).step (buses (n + 1))).events
        = [.decoded .base (opcodeFetched cpu (buses (n + 1))) cpu.regs.pc]
  /-- Where the interrupt is held until it is acknowledged, the five calls after the one that woke the
  processor serve it. -/
  serves : (commitIme^[n + 2] cpu).ime = true → Bus.HasInterrupt (buses (n + 1)) →
    ∀ line, (Bus.poll (Bus.poll (buses (n + 1))).2).1.first? = some line →
      ServesLine line cpu.regs.pc (cpu.after buses (n + 1)) (fun k => buses (n + 1 + k))
        ∧ (cpu.after buses (n + 6)).atBoundary = true
        ∧ (cpu.after buses (n + 6)).regs
          = { cpu.regs with pc := line.vector, sp := cpu.regs.sp - 2 }

/-- The poll that wakes the processor leaves it all that it had. -/
theorem Cpu.Resting.woken (h : cpu.Resting) (sound : cpu.Sound) (halted : cpu.halted = true) {n : Nat}
    (quiet : Quiet n buses) (found : (Bus.poll (buses n)).1.isEmpty = false) : Woken n cpu buses := by
  obtain ⟨boundary, clear⟩ := h.halted halted
  have wakes := Cpu.after_of_found boundary halted quiet found
  have boundary' : (cpu.wakened (n + 1)).suspended = none := by rw [Cpu.wakened_eq, boundary]
  have sound' : (cpu.wakened (n + 1)).Sound := wakes ▸ sound.after buses (n + 1)
  have regs : (cpu.wakened (n + 1)).regs = cpu.regs := by rw [Cpu.wakened_eq]
  refine ⟨wakes, ?_, fun enabled pending => ?_, fun neither => ?_,
    fun enabled pending line present => ?_⟩
  · rw [Cpu.after_of_quiet boundary halted quiet]
    obtain ⟨boundary, halted⟩ := Cpu.idled_still boundary halted n
    exact .of_halted boundary halted (buses n)
  · rw [wakes]
    exact sound'.startsDispatch boundary' ((cpu.wakened_serves _ _).2 ⟨enabled, pending⟩)
  · rw [wakes]
    have idle := Bool.eq_false_iff.2 fun h => neither ((cpu.wakened_serves _ _).1 h)
    obtain ⟨faultless, -, passed, -⟩ := sound'.step_begins boundary' rfl idle
    refine ⟨faultless, passed.trans ?_⟩
    rw [Cpu.wakened_eq]
    rfl
  · have full : ServesInFull line (cpu.wakened (n + 1)) fun k => buses (n + 1 + k) :=
      sound'.servesInFull boundary' ((cpu.wakened_serves _ _).2 ⟨enabled, pending⟩) present
    have returns : (cpu.wakened (n + 1)).returnAddress = cpu.regs.pc := by
      rw [Cpu.returnAddress, Cpu.wakened_eq, clear]
      rfl
    have six : cpu.after buses (n + 6)
        = (cpu.wakened (n + 1)).after (fun k => buses (n + 1 + k)) 5 := by
      rw [← wakes]
      exact cpu.after_add buses (n + 1) 5
    rw [six, wakes, ← returns, ← regs]
    exact ⟨full.toServesLine, full.calls.boundary, full.regs⟩

/-! ## The whole of a halt -/

/-- What a `HALT` does, in the call that executes it and from there on. -/
structure HaltsAndWakes (cpu : Cpu) (buses : Nat → β) : Prop where
  /-- Its own poll decides whether the processor is halted or the HALT bug armed. -/
  enters : cpu.atBoundary = true → cpu.halted = false → cpu.serves (buses 0) = false →
    opcodeFetched cpu (buses 0) = 0x76 → Decided cpu (buses 0)
  /-- As long as polls find nothing, each call hands the gate over, is counted, and polls. -/
  idles : cpu.halted = true → ∀ n, Quiet n buses →
    cpu.after buses n = cpu.idled n ∧ (cpu.after buses n).halted = true
      ∧ ∀ k < n, OnlyPolls (cpu.after buses k) (buses k)
  /-- The first that finds something wakes the processor. -/
  wakes : cpu.halted = true → ∀ n, Quiet n buses → (Bus.poll (buses n)).1.isEmpty = false →
    Woken n cpu buses

/-- So it is with every `HALT`, however long it lasts and whatever is done to the bus meanwhile. -/
theorem Reachable.haltsAndWakes (h : Reachable cpu) (buses : Nat → β) : HaltsAndWakes cpu buses := by
  refine ⟨fun boundary awake idle halts => ?_, fun halted n quiet => ?_,
    fun halted n quiet found => h.resting.woken h.sound halted quiet found⟩
  · exact h.sound.decided (Cpu.atBoundary_eq_true_iff.1 boundary) awake idle
      ((ofOpcode_eq_halt_iff _).2 halts)
  · obtain ⟨boundary, -⟩ := h.resting.halted halted
    have asleep (k : Nat) (hk : k ≤ n) : cpu.after buses k = cpu.idled k :=
      Cpu.after_of_quiet boundary halted fun i hi => quiet i (Nat.lt_of_lt_of_le hi hk)
    refine ⟨asleep n (Nat.le_refl n), ?_, fun k hk => ?_⟩
    · rw [asleep n (Nat.le_refl n)]
      exact (Cpu.idled_still boundary halted n).2
    · rw [asleep k (Nat.le_of_lt hk)]
      obtain ⟨boundary, halted⟩ := Cpu.idled_still boundary halted k
      exact .of_halted boundary halted (buses k)

end Runs

/-- A bus that shows no interrupt to one poll, has a `HALT` for a processor that starts at `0x0100`, and
shows all five lines from then on. -/
def quietOnce : Bus.Scripted (Bus.Blocked Memory) := ⟨[(enableAddress, 0x00), (0x0100, 0x76)], openBus⟩

/-- The processor that was halted by it with interrupts enabled. -/
def sleeping : Cpu := (listening.step quietOnce).cpu

/-- All lines are raised before the third call. -/
def raisedLater (k : Nat) : Bus.Scripted (Bus.Blocked Memory) :=
  if k < 2 then quietOnce else ⟨[], openBus⟩

/-- The processor sleeps for two calls and is woken by the third, and its handler comes next five calls
later. -/
theorem Reachable.haltsAndWakes_raised :
    Reachable sleeping ∧ sleeping.halted = true
      ∧ (sleeping.after raisedLater (2 + 1)).halted = false
      ∧ (sleeping.after raisedLater (2 + 6)).regs
        = { sleeping.regs with pc := 0x0040, sp := sleeping.regs.sp - 2 } := by
  have reachable : Reachable sleeping := .step (.setIme (.new .dmg true) true) quietOnce
  have halted : sleeping.halted = true := by decide +kernel
  have enabled : (commitIme^[2 + 2] sleeping).ime = true := by decide +kernel
  have quiet : Quiet 2 raisedLater :=
    (by decide : ∀ k < 2, (Bus.poll (raisedLater k)).1.isEmpty = true)
  have pending : Bus.HasInterrupt (raisedLater (2 + 1)) := Bus.hasInterrupt_iff.2 (by decide)
  have woken := (Reachable.haltsAndWakes reachable raisedLater).wakes halted 2 quiet (by decide)
  have regs := (woken.serves enabled pending ⟨0x01⟩ (by decide)).2.2
  have vector : InterruptSet.vector ⟨0x01⟩ = 0x0040 := by decide
  rw [vector] at regs
  refine ⟨reachable, halted, ?_, regs⟩
  rw [woken.wakes]
  rfl

end Sm83
