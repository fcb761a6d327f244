import Sm83.Proofs.Execution.Refinement
import Sm83.Proofs.Interrupts.Dispatch
import Sm83.Proofs.Interrupts.Requests

/-!
# An interrupt served on flat memory

On a flat memory a poll changes nothing, so what the boundary found is there for the acknowledge, and
the five calls that serve an interrupt (`Interrupts.Dispatch`) can be followed through the memory.  They
make three writes: the request is withdrawn, and the address to return to is pushed.  The pushes go
wherever the stack pointer points, over the interrupt registers too, and come too late to change which
handler is gone to.

* `Memory.withdraw` — the first of the three writes.
* `ServedOnMemory` — all that the five calls do, write by write.
* `Cpu.servedOnMemory` — so every interrupt is served that is requested and enabled.
-/

namespace Sm83

/-! ## Withdrawing a request -/

/-- Memory without the request of line `k`. -/
def Memory.withdraw (k : Nat) (mem : Memory) : Memory :=
  mem.set requestAddress (mem.get requestAddress &&& ~~~(InterruptSet.line k).bits)

/-- Of the eight bits of the register one is cleared. -/
theorem Memory.requested_withdraw {k : Nat} (isLine : k < 5) (mem : Memory) (j : Nat) :
    (mem.withdraw k).requested.has j = (mem.requested.has j && !(j == k)) := by
  rw [requested, withdraw, get_set, InterruptSet.has_and_not, InterruptSet.has_line isLine]
  rfl

/-- Where the handler of a line is. -/
theorem InterruptSet.vector_line {k : Nat} (isLine : k < 5) :
    (line k).vector = UInt16.ofNat (0x40 + 8 * k) :=
  (by decide : ∀ k < 5, (line k).vector = UInt16.ofNat (0x40 + 8 * k)) k isLine

/-- A processor serves an interrupt if the two registers have a line in common. -/
theorem Cpu.serves_memory {cpu : Cpu} {mem : Memory} (awake : cpu.halted = false)
    (enabled : (Machine.commitIme cpu).ime = true)
    (pending : mem.get enableAddress &&& mem.get requestAddress &&& lineMask ≠ 0) :
    cpu.serves mem = true := by
  have found : (Bus.poll mem).1.isEmpty = false := by
    rw [Memory.poll_eq]
    exact beq_eq_false_iff_ne.2 pending
  rw [Cpu.serves, awake, enabled, found]
  rfl

/-! ## The five calls -/

/-- How five calls serve line `k` on a memory. -/
structure ServedOnMemory (k : Nat) (cpu : Cpu) (mem : Memory) : Prop where
  calls : TakesCalls 5 cpu (cpu.buses mem)
  isLine : k < 5
  /-- It is the lowest line that is requested and enabled. -/
  present : mem.requested.has k = true ∧ mem.enabled.has k = true
  first : ∀ j < k, ¬ (mem.requested.has j = true ∧ mem.enabled.has j = true)
  /-- The first call withdraws its request and keeps the other bits of the register. -/
  acknowledged : cpu.buses mem 1 = mem.withdraw k
  requests : ∀ j, (cpu.buses mem 1).requested.has j = (mem.requested.has j && !(j == k))
  second : cpu.buses mem 2 = cpu.buses mem 1
  /-- The third call and the fourth push the address to return to, high byte first. -/
  high : cpu.buses mem 3 = (cpu.buses mem 2).set (cpu.regs.sp - 1) (Manual.upper cpu.returnAddress)
  low : cpu.buses mem 4 = (cpu.buses mem 3).set (cpu.regs.sp - 2) (Manual.lower cpu.returnAddress)
  last : cpu.buses mem 5 = cpu.buses mem 4
  /-- The handler comes next, with interrupts disabled and the HALT bug disarmed. -/
  core : (cpu.after (cpu.buses mem) 5).core = {
    regs := { cpu.regs with pc := UInt16.ofNat (0x40 + 8 * k), sp := cpu.regs.sp - 2 }
    ime := false, imePending := false, imeDelay := false
    halted := false, haltBug := false
    opcodeAddress := cpu.opcodeAddress }
  speed : (cpu.after (cpu.buses mem) 5).speed = cpu.speed

/-- The core with which a handler starts, all but the registers. -/
theorem Cpu.choosing_disarm {cpu : Cpu} (awake : cpu.halted = false) (regs : Registers) :
    { cpu.choosing.core.disarm with regs := regs } = ({
      regs := regs
      ime := false, imePending := false, imeDelay := false
      halted := false, haltBug := false
      opcodeAddress := cpu.opcodeAddress } : Core) := by
  simp only [Core.disarm, Cpu.choosing, Machine.commitIme_eq, Cpu.core, awake]

/-- An interrupt that is found at a boundary is served. -/
theorem Cpu.Sound.servesLowest {cpu : Cpu} {mem : Memory} (h : cpu.Sound)
    (boundary : cpu.suspended = none) (awake : cpu.halted = false) (serves : cpu.serves mem = true)
    (slots : cpu.speed.isSome = true →
      cpu.regs.sp - 1 ≠ SpeedSwitch.address ∧ cpu.regs.sp - 2 ≠ SpeedSwitch.address) :
    ∃ k, ServedOnMemory k cpu mem := by
  obtain ⟨line, present⟩ := Cpu.first?_of_serves serves
  have full : ServesInFull line cpu (cpu.buses mem) := h.servesInFull boundary serves present
  obtain ⟨k, isLine, rfl, ⟨enabled, requested⟩, first⟩ := InterruptSet.first?_and present
  -- the speed switch and the memory that each call leaves
  have left (i : Nat) (hi : i < 5) {speed : Option SpeedSwitch} {mem' : Memory} {events : List Event}
      (out : ((cpu.after (cpu.buses mem) i).step (cpu.buses mem i)).scene.out = ⟨speed, mem', events⟩) :
      (cpu.after (cpu.buses mem) (i + 1)).speed = speed ∧ cpu.buses mem (i + 1) = mem' :=
    ⟨congrArg Outside.speed out, (full.calls.buses_succ hi).trans (congrArg Outside.bus out)⟩
  obtain ⟨speed₁, acknowledged⟩ := left 0 (by decide) full.acknowledged
  obtain ⟨speed₂, second⟩ := left 1 (by decide) full.second
  rw [speed₁] at speed₂
  obtain ⟨speed₃, high⟩ := left 2 (by decide) <| full.high.trans <| (Manual.store_eq _ _ _).trans <|
    Outside.store_of_off (fun switch => (slots (by rwa [speed₂] at switch)).1) _
  rw [speed₂] at speed₃
  obtain ⟨speed₄, low⟩ := left 3 (by decide) <| full.low.trans <| (Manual.store_eq _ _ _).trans <|
    Outside.store_of_off (fun switch => (slots (by rwa [speed₃] at switch)).2) _
  obtain ⟨speed₅, last⟩ := left 4 (by decide) full.last
  refine ⟨k, full.calls, isLine, ⟨requested, enabled⟩, fun j lower both => first j lower both.symm,
    acknowledged, fun j => ?_, second, high, low, last, ?_, ?_⟩
  · rw [acknowledged]
    exact mem.requested_withdraw isLine j
  · rw [full.core, Cpu.choosing_disarm awake, InterruptSet.vector_line isLine]
  · rw [speed₅, speed₄, speed₃]

/-- From a boundary with interrupts enabled, the lowest line that is requested and enabled is served in
five calls, wherever the stack pointer points. -/
theorem Cpu.servedOnMemory {cpu : Cpu} {mem : Memory} (boundary : cpu.atBoundary = true)
    (empty : cpu.scratch.isEmpty = true) (awake : cpu.halted = false)
    (enabled : (Machine.commitIme cpu).ime = true)
    (pending : mem.get enableAddress &&& mem.get requestAddress &&& lineMask ≠ 0)
    (slots : cpu.speed.isSome = true →
      cpu.regs.sp - 1 ≠ SpeedSwitch.address ∧ cpu.regs.sp - 2 ≠ SpeedSwitch.address) :
    ∃ k, ServedOnMemory k cpu mem :=
  (Cpu.Sound.of_boundary boundary empty).servesLowest (Cpu.atBoundary_eq_true_iff.1 boundary) awake
    (Cpu.serves_memory awake enabled pending) slots

theorem firstRaised_get :
    firstRaised.get requestAddress = 0x01 ∧ firstRaised.get enableAddress = 0x01 := by
  have zero : Memory.zero.get requestAddress = 0 := Vector.getElem_replicate _
  constructor
  · rw [firstRaised, Memory.get_request, firstEnabled, Memory.get_set_of_ne _ _ (by decide), zero]
    decide
  · rw [firstRaised, Memory.get_request_of_ne _ _ (by decide), firstEnabled, Memory.get_set]

/-- A processor that enables interrupts at this boundary, with the HALT bug armed and a stack that goes
over the end of the address space. -/
def wrapping : Cpu :=
  { Cpu.new .dmg true with
    imeDelay := true, haltBug := true, regs := { Model.bootRegisters .dmg with sp := 0x0001 } }

/-- The low byte of the address to return to replaces the register that enabled the interrupt. -/
theorem Cpu.servedOnMemory_wrapping :
    (wrapping.after (wrapping.buses firstRaised) 5).core.regs.pc = 0x0040
      ∧ (wrapping.buses firstRaised 5).get enableAddress = 0xFF := by
  have pending : firstRaised.get enableAddress &&& firstRaised.get requestAddress &&& lineMask ≠ 0 := by
    rw [firstRaised_get.1, firstRaised_get.2]
    decide
  obtain ⟨k, served⟩ : ∃ k, ServedOnMemory k wrapping firstRaised :=
    Cpu.servedOnMemory rfl rfl rfl (by decide) pending nofun
  have line : (InterruptSet.line 0).has k = true := by
    have present := served.present.1
    rwa [Memory.requested, firstRaised_get.1] at present
  obtain rfl : k = 0 := eq_of_beq ((InterruptSet.has_line (by decide) k).symm.trans line)
  have slot : wrapping.regs.sp - 2 = enableAddress := by decide
  have low : Manual.lower wrapping.returnAddress = 0xFF := by decide
  refine ⟨by rw [served.core]; rfl, ?_⟩
  rw [served.last, served.low, slot, low, Memory.get_set]

end Sm83
