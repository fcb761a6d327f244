import Sm83.Proofs.Run.Lockstep

/-!
# A reset is as good as a new processor

A reset empties the scratch stack and leaves its buffer, so the bytes of the instruction that it cut
short are still there.  Nobody ever reads them: a byte is taken off the stack only after it was put on.

* `Cpu.Indistinct.hosted` — leftovers make no difference to any run, on whatever bus and with whatever
  host.
* `Cpu.reset_hosted` — so after a reset everything is as with a new processor, wherever the reset came.
-/

namespace Sm83

open Bus (Recorded)

variable {β : Type} [Bus β] {cpu cpu' : Cpu}

/-- Processors with the same speed switch on the same bus meet the same. -/
theorem Lockstep.refl : Lockstep (fun _ => True) (fun s s' => s' = s) (fun b b' : β => b' = b) where
  polled := ⟨trivial, trivial⟩
  shared _ _ _ same := same
  set _ _ _ := rfl
  stops _ _ same := .inl same
  read _ _ _ _ _ _ _ _ same := same ▸ ⟨rfl, rfl⟩
  write _ _ _ _ _ _ _ _ _ same := same ▸ rfl

/-- Two calls that cannot be told apart, nor what they left: not by the processor, the bus and the
accesses on its record, the events, of which trace and log are made, or a fault. -/
structure Outcome.Indistinct (o o' : Outcome (Recorded β)) : Prop where
  cpu : o.cpu.Indistinct o'.cpu
  bus : o'.bus = o.bus
  events : o'.events = o.events
  fault : o'.fault = o.fault

/-- Leftovers on the scratch stack make no difference to any run. -/
theorem Cpu.Indistinct.hosted (h : cpu.Indistinct cpu') (sound : cpu.Sound) (host : Nat → β → β)
    (bus : β) (n : Nat) :
    Outcome.Indistinct (cpu.hosted host bus n) (cpu'.hosted host bus n) := by
  have hosts (n : Nat) (b b' : β) (same : b' = b) : host n b' = host n b := congrArg (host n) same
  obtain ⟨ends, cpu⟩ := Lockstep.refl.indistinct (fun _ => trivial) hosts sound h rfl (Eq.refl bus) n
  exact ⟨cpu, ends.cpu.scene.out.bus.eq, ends.events, ends.fault⟩

/-- A processor after a reset goes through all that a new one of its model goes through, whatever it
was doing when the reset came. -/
theorem Cpu.reset_hosted (cpu : Cpu) (skipBoot : Bool) {β : Type} [Bus β] (host : Nat → β → β)
    (bus : β) (n : Nat) :
    Outcome.Indistinct ((Cpu.new cpu.model skipBoot).hosted host bus n)
      ((cpu.reset skipBoot).hosted host bus n) := by
  have cleared : (Cpu.new cpu.model skipBoot).Indistinct (cpu.reset skipBoot) :=
    ⟨rfl, cpu.scratch.toList_clear⟩
  exact cleared.hosted (Reachable.new cpu.model skipBoot).sound host bus n

end Sm83
