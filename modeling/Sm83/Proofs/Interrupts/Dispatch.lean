import Sm83.Proofs.Execution.Rows
import Sm83.Proofs.Run.Shown
import Sm83.Proofs.Run.Timing

/-!
# How an interrupt is served

From the boundary at which an interrupt is served to the first instruction of its handler there are
five calls.  The first acknowledges the interrupt and may be the last, because the request may have
gone; after that nothing can go wrong, and the calls are followed exactly.

* `Standing` — a suspended instruction together with all that its steps can depend on inside the
  processor; `Standing.step` takes it through one call.
* `Cpu.returnAddress` — where the handler returns to.
* `ServesLine` — the five calls: the third and the fourth write the return address below the stack
  pointer, and the fifth goes to the handler.
* `ServesInFull` — with all else that they do, and `Cpu.Sound.servesInFull`, that they do it.
-/

namespace Sm83

open Microcode (internal)

section Dispatch

variable {β : Type} [Bus β] {cpu : Cpu} {bus : β} {buses : Nat → β} {line : InterruptSet}

/-! ## Standing inside an instruction -/

/-- A suspended instruction, with the bytes on the scratch stack and the core. -/
structure Standing (s : Suspension) (xs : List UInt8) (c : Core) (cpu : Cpu) : Prop where
  sound : cpu.Sound
  under : cpu.suspended = some s
  stack : cpu.scratch.toList = xs
  core : cpu.core = c

theorem EndsAt.standing {s : Suspension} {v : Scene β} (h : EndsAt (some s) v (cpu.step bus))
    (sound : cpu.Sound) : Standing s v.stack v.core (cpu.step bus).cpu :=
  ⟨sound.step bus, h.suspended, congrArg Scene.stack h.scene, congrArg Scene.core h.scene⟩

omit [Bus β] in
/-- What the next call finds. -/
theorem Standing.sceneInside_eq {s : Suspension} {xs : List UInt8} {c : Core}
    (h : Standing s xs c cpu) (bus : β) : sceneInside cpu bus = ⟨xs, c, cpu.speed, bus, []⟩ := by
  rw [sceneInside, h.stack, h.core]

/-- A call carries out the machine cycle that is waited for, and the transfers up to the next one. -/
theorem Standing.step {k k' : MachineCycle} {ts : List Transfer} {rest : List MicroStep}
    {exit : Exit} {xs : List UInt8} {c : Core} {w : Scene β}
    (h : Standing ⟨k, internal ts ++ .cycle k' :: rest, exit⟩ xs c cpu) (bus : β)
    (acts : actAll (.cycle k :: internal ts) ⟨xs, c, cpu.speed, bus, []⟩ = some w) :
    EndsAt (some ⟨k', rest, exit⟩) w (cpu.step bus) := by
  obtain ⟨u, tick, later⟩ := Option.bind_eq_some_iff.1 acts
  rw [← h.sceneInside_eq] at tick
  exact h.sound.inside_endsAt h.under tick (.row later)

/-- Or to the end of the instruction. -/
theorem Standing.lastStep {k : MachineCycle} {ts : List Transfer} {xs : List UInt8} {c : Core}
    {w : Scene β} (h : Standing ⟨k, internal ts, .retire⟩ xs c cpu) (bus : β)
    (acts : actAll (.cycle k :: internal ts) ⟨xs, c, cpu.speed, bus, []⟩ = some w) :
    EndsAt none w (cpu.step bus) := by
  obtain ⟨u, tick, later⟩ := Option.bind_eq_some_iff.1 acts
  rw [← h.sceneInside_eq] at tick
  exact h.sound.inside_endsAt h.under tick (.lastRow later)

/-! ## The five calls -/

/-- Where the handler of an interrupt returns to: one instruction back if the HALT bug is armed. -/
def Cpu.returnAddress (cpu : Cpu) : UInt16 := if cpu.haltBug then cpu.regs.pc - 1 else cpu.regs.pc

/-- How five calls serve the interrupt of a line, to return to this address. -/
structure ServesLine (line : InterruptSet) (address : UInt16) (cpu : Cpu) (buses : Nat → β) :
    Prop where
  calls : TakesCalls 5 cpu buses
  /-- The third call writes the high byte of the address. -/
  high : ((cpu.after buses 2).step (buses 2)).scene.out
    = Manual.store (cpu.regs.sp - 1) (Manual.upper address) ⟨(cpu.after buses 2).speed, buses 2, []⟩
  /-- The fourth call writes the low byte. -/
  low : ((cpu.after buses 3).step (buses 3)).scene.out
    = Manual.store (cpu.regs.sp - 2) (Manual.lower address) ⟨(cpu.after buses 3).speed, buses 3, []⟩
  /-- The handler comes next. -/
  regs : (cpu.after buses 5).regs = { cpu.regs with pc := line.vector, sp := cpu.regs.sp - 2 }

/-- The same five calls with all that they do. -/
structure ServesInFull (line : InterruptSet) (cpu : Cpu) (buses : Nat → β) : Prop
    extends ServesLine line cpu.returnAddress cpu buses where
  /-- The first call withdraws the request. -/
  acknowledged : (cpu.step (buses 0)).scene.out = (sceneAcknowledged cpu (buses 0) line).out
  /-- The second call and the last leave the outside alone. -/
  second : ((cpu.after buses 1).step (buses 1)).scene.out
    = ⟨(cpu.after buses 1).speed, buses 1, []⟩
  last : ((cpu.after buses 4).step (buses 4)).scene.out = ⟨(cpu.after buses 4).speed, buses 4, []⟩
  /-- The gate is closed and the HALT bug disarmed. -/
  core : (cpu.after buses 5).core = { cpu.choosing.core.disarm with
    regs := { cpu.regs with pc := line.vector, sp := cpu.regs.sp - 2 } }

/-- The way of an interrupt whose request has not gone, with any buses from the second call on. -/
theorem Cpu.Sound.servesInFull (h : cpu.Sound) (boundary : cpu.suspended = none)
    (serves : cpu.serves (buses 0) = true)
    (present : (Bus.poll (Bus.poll (buses 0)).2).1.first? = some line) :
    ServesInFull line cpu buses := by
  let o := (sceneAcknowledged cpu (buses 0) line).out
  let c := cpu.choosing.core.disarm
  let a := c.regs.sp - 2
  let d : Core := { c with regs := { c.regs with sp := a } }
  have regs : c.regs = { cpu.regs with pc := cpu.returnAddress } := by
    simp only [c, Core.disarm, Cpu.choosing, Machine.commitIme_eq, Cpu.core, Cpu.returnAddress]
  have pc : c.regs.pc = cpu.returnAddress := congrArg Registers.pc regs
  have sp : a = cpu.regs.sp - 2 := by
    show c.regs.sp - 2 = _
    rw [regs]
  have pushes : actAll (internal [.loadWord .pc, .stackSlot]) (sceneAcknowledged cpu (buses 0) line)
      = some ⟨onTop a (onTop c.regs.pc (onTop line.vector [])), d, o⟩ := rfl
  have sound (k : Nat) : (cpu.after buses k).Sound := h.after buses k
  -- the rows behind the machine cycles that the calls wait for, from the last one on
  let toHandler : List MicroStep := internal [.storeWord .pc]
  let toLow : List MicroStep := internal [] ++ .cycle .delay :: toHandler
  let toHigh : List MicroStep := internal [] ++ .cycle .write :: toLow
  have first : EndsAt (some ⟨.delay, internal [.splitWord true] ++ .cycle .write :: toHigh, .retire⟩)
      ⟨onTop a (onTop c.regs.pc (onTop line.vector [])), d, o⟩ (cpu.step (buses 0)) :=
    h.serving_endsAt boundary serves present (.row pushes)
  have second := (first.standing (sound 0)).step (buses 1)
    (actAll_splitWord [] _ d _ true a c.regs.pc)
  have third := (second.standing (sound 1)).step (buses 2) (actAll_write _ d _ (a + 1) _)
  have fourth := (third.standing (sound 2)).step (buses 3) (actAll_write _ d _ a _)
  have fifth := (fourth.standing (sound 3)).lastStep (buses 4)
    (actAll_storeWord [] [] d _ .pc line.vector)
  have acknowledged : (cpu.step (buses 0)).scene.out = o := by rw [first.scene]
  have core : (cpu.after buses 5).core = { c with
      regs := { cpu.regs with pc := line.vector, sp := cpu.regs.sp - 2 } } := by
    refine (congrArg Scene.core fifth.scene).trans ?_
    show ({ c with regs := { c.regs with sp := a, pc := line.vector } } : Core) = _
    rw [sp, regs]
  refine ⟨⟨⟨fun k hk => ?_, fun k hpos hk => ?_, ?_⟩, ?_, ?_, congrArg Core.regs core⟩,
    acknowledged, congrArg Scene.out second.scene, congrArg Scene.out fifth.scene, core⟩
  · obtain rfl | rfl | rfl | rfl | rfl : k = 0 ∨ k = 1 ∨ k = 2 ∨ k = 3 ∨ k = 4 := by omega
    · exact first.faultless
    · exact second.faultless
    · exact third.faultless
    · exact fourth.faultless
    · exact fifth.faultless
  · obtain rfl | rfl | rfl | rfl : k = 1 ∨ k = 2 ∨ k = 3 ∨ k = 4 := by omega
    · exact Cpu.atBoundary_eq_false_iff.2 ⟨_, first.suspended⟩
    · exact Cpu.atBoundary_eq_false_iff.2 ⟨_, second.suspended⟩
    · exact Cpu.atBoundary_eq_false_iff.2 ⟨_, third.suspended⟩
    · exact Cpu.atBoundary_eq_false_iff.2 ⟨_, fourth.suspended⟩
  · exact Cpu.atBoundary_eq_true_iff.2 fifth.suspended
  · rw [← pc, ← sub_two_add_one, ← sp]
    exact congrArg Scene.out third.scene
  · rw [← pc, ← sp]
    exact congrArg Scene.out fourth.scene

theorem Reachable.servesLine (h : Reachable cpu) (boundary : cpu.suspended = none)
    (serves : cpu.serves (buses 0) = true)
    (present : (Bus.poll (Bus.poll (buses 0)).2).1.first? = some line) :
    ServesLine line cpu.returnAddress cpu buses :=
  (h.sound.servesInFull boundary serves present).toServesLine

end Dispatch

end Sm83
