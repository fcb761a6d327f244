import Sm83.Proofs.Interrupts.Requests
import Sm83.Proofs.Run.Lockstep

/-!
# The byte behind the speed switch

On the colour model the register of the speed switch lies in front of one byte of the bus.  No program
can read that byte or write it: not as data, not as an opcode or an operand, not with the stack, and
not by way of an interrupt.  Two runs that start with different bytes there go the same way, and each
keeps its own.

* `Bus.requestAll` — what the host does between the calls: it raises requests.
* `Cpu.Sound.misses_switch` — no call of a processor with a speed switch accesses that byte.
* `Memory.AlikeExcept` — two memories that agree everywhere else, and what each holds there.
* `Reachable.isolated` — two runs on such memories.
-/

namespace Sm83

open Bus (Access Recorded)

/-! ## Requests from outside -/

/-- Raise requests one after the other. -/
def Bus.requestAll {β : Type} [Bus β] (requests : List InterruptSet) (bus : β) : β :=
  requests.foldl (fun bus lines => request lines bus) bus

/-- What raising requests keeps. -/
theorem Bus.requestAll_induction {β γ : Type} [Bus β] [Bus γ] {B : β → γ → Prop}
    (step : ∀ lines b b', B b b' → B (request lines b) (request lines b'))
    (requests : List InterruptSet) {b : β} {b' : γ} (h : B b b') :
    B (requestAll requests b) (requestAll requests b') := by
  induction requests generalizing b b' with
  | nil => exact h
  | cons lines requests ih => exact ih (step lines b b' h)

/-! ## What calls access -/

/-- A poll looks at the interrupt registers, which are elsewhere. -/
theorem Bus.polling_misses_switch {β : Type} [Bus β] {bus : β} {x : Access} (h : x ∈ polling bus) :
    x.address ≠ SpeedSwitch.address := by
  rw [polling, List.mem_cons, List.mem_singleton] at h
  rcases h with rfl | rfl
  · show enableAddress ≠ _
    decide
  · show requestAddress ≠ _
    decide

section Calls

variable {β : Type} [Bus β] {cpu : Cpu}

/-- The access that meets a demand goes where it is made. -/
theorem Demand.address_of_mem_accesses {d : Option Demand} {bus : β} {x : Access}
    (h : x ∈ accesses d bus) : ∃ d' ∈ d, x.address = d'.address := by
  match d, h with
  | some (.read a), h | some (.write a value), h =>
    exact ⟨_, rfl, congrArg Access.address (List.mem_singleton.1 h)⟩

/-- A processor that has a speed switch asks nothing of the bus at its address. -/
theorem Demand.unlessSwitch_address {speed : Option SpeedSwitch} (switch : speed.isSome = true)
    {a : UInt16} {d d' : Demand} (h : unlessSwitch speed a d = some d') :
    a ≠ SpeedSwitch.address ∧ d' = d := by
  obtain ⟨s, rfl⟩ := Option.isSome_iff_exists.1 switch
  rw [unlessSwitch] at h
  split at h
  next => cases h
  next off =>
    refine ⟨fun reached => ?_, (Option.some.inj h).symm⟩
    rw [if_pos reached] at off
    cases off

/-- No call of such a processor accesses the bus there. -/
theorem Cpu.Sound.misses_switch (h : cpu.Sound) (switch : cpu.speed.isSome = true) (bus : β) :
    ∀ x ∈ (cpu.step (Recorded.mk [] bus)).bus.accesses, x.address ≠ SpeedSwitch.address := by
  intro x member
  cases cpu.callKind bus with
  | inside s under =>
    rw [(h.accesses_inside (Cpu.atBoundary_eq_false_iff.2 ⟨s, under⟩) bus).2,
      Cpu.demand?_eq] at member
    obtain ⟨d', demanded, address⟩ := Demand.address_of_mem_accesses member
    obtain ⟨d, -, passed⟩ := Option.bind_eq_some_iff.1 demanded
    obtain ⟨off, rfl⟩ := Demand.unlessSwitch_address switch passed
    exact address ▸ off
  | idling boundary halted =>
    rw [(Cpu.accesses_idling boundary halted).2] at member
    exact Bus.polling_misses_switch member
  | serving boundary serves line present =>
    rw [(h.accesses_serving boundary serves present).2, List.mem_append, List.mem_append,
      List.mem_singleton] at member
    rcases member with (polled | polled) | rfl
    · exact Bus.polling_misses_switch polled
    · exact Bus.polling_misses_switch polled
    · show requestAddress ≠ SpeedSwitch.address
      decide
  | vanishing boundary serves gone =>
    rw [(Cpu.accesses_vanishing boundary serves gone).2, List.mem_append] at member
    exact member.elim Bus.polling_misses_switch Bus.polling_misses_switch
  | fetching boundary awake idle =>
    rw [(h.accesses_fetching boundary awake idle).2, List.mem_append, List.mem_append] at member
    rcases member with (polled | fetched) | polled
    · exact Bus.polling_misses_switch polled
    · rw [fetchAccesses] at fetched
      split at fetched
      next => cases fetched
      next elsewhere =>
        rw [List.mem_singleton.1 fetched]
        exact fun reached => elsewhere ⟨switch, reached⟩
    · split at polled
      next => exact Bus.polling_misses_switch polled
      next => cases polled

end Calls

/-! ## Two memories -/

/-- Two memories that are alike but for what each holds at an address. -/
structure Memory.AlikeExcept (a : UInt16) (value value' : UInt8) (mem mem' : Memory) : Prop where
  elsewhere : ∀ b, b ≠ a → mem'.get b = mem.get b
  here : mem.get a = value
  here' : mem'.get a = value'

namespace Memory.AlikeExcept

variable {a : UInt16} {value value' : UInt8} {mem mem' : Memory}

/-- A write to another address leaves them so. -/
theorem set (h : AlikeExcept a value value' mem mem') {b : UInt16} (other : b ≠ a) (x : UInt8) :
    AlikeExcept a value value' (mem.set b x) (mem'.set b x) := by
  constructor
  · intro c hc
    by_cases same : b = c
    · simp [same]
    · simpa [get_set_of_ne _ _ same] using h.elsewhere c hc
  · simpa [get_set_of_ne _ _ other] using h.here
  · simpa [get_set_of_ne _ _ other] using h.here'

/-- And so does a request, if it is not the register of requests. -/
theorem request (other : requestAddress ≠ a) (lines : InterruptSet)
    (h : AlikeExcept a value value' mem mem') :
    AlikeExcept a value value' (Bus.request lines mem) (Bus.request lines mem') := by
  have same : mem'.get requestAddress = mem.get requestAddress := h.elsewhere _ other
  have written := h.set other (mem.get requestAddress ||| lines.bits)
  rwa [show mem'.set _ (mem.get requestAddress ||| lines.bits) = Bus.request lines mem' from
    same ▸ rfl] at written

end Memory.AlikeExcept

/-- An access that comes to the bus in spite of a speed switch goes elsewhere. -/
theorem elsewhere_of_passes {s : Option SpeedSwitch} {a : UInt16} (switch : s.isSome = true)
    (passes : a = SpeedSwitch.address → s = none) : a ≠ SpeedSwitch.address := by
  intro reached
  rw [passes reached] at switch
  cases switch

/-- A processor with a speed switch does not notice what the memory behind it holds. -/
theorem Lockstep.behindSwitch (value value' : UInt8) :
    Lockstep (fun _ => True) (fun s s' => s' = s ∧ s.isSome = true)
      (Memory.AlikeExcept SpeedSwitch.address value value') where
  polled := ⟨trivial, trivial⟩
  shared _ _ _ h := h.1
  set _ _ _ := ⟨rfl, rfl⟩
  stops _ _ h := .inl h.1
  read a _ _ _ _ _ speeds passes h := ⟨h.elsewhere a (elsewhere_of_passes speeds.2 passes), h⟩
  write _ x _ _ _ _ _ speeds passes h := h.set (elsewhere_of_passes speeds.2 passes) x

/-! ## Two runs -/

/-- The last calls of two runs that started in memories with different bytes behind the switch. -/
structure Isolated (mem mem' : Memory) (o o' : Outcome (Recorded Memory)) : Prop where
  /-- The processors cannot be told apart: registers, interrupt state, speed switch and count of cycles
  are the same. -/
  cpu : o.cpu.Indistinct o'.cpu
  accesses : o'.bus.accesses = o.bus.accesses
  events : o'.events = o.events
  fault : o'.fault = o.fault
  elsewhere : ∀ a, a ≠ SpeedSwitch.address → o'.bus.inner.get a = o.bus.inner.get a
  /-- Each memory has kept its own byte. -/
  kept : o.bus.inner.get SpeedSwitch.address = mem.get SpeedSwitch.address
    ∧ o'.bus.inner.get SpeedSwitch.address = mem'.get SpeedSwitch.address
  /-- The byte was not accessed. -/
  hidden : ∀ x ∈ o.bus.accesses, x.address ≠ SpeedSwitch.address

/-- Whatever a host has done with a processor of the colour model, it is isolated from that byte, in
runs of any length. -/
theorem Reachable.isolated {cpu : Cpu} (h : Reachable cpu) (colour : cpu.model = .cgb)
    {mem mem' : Memory} (alike : ∀ a, a ≠ SpeedSwitch.address → mem'.get a = mem.get a)
    (requests : Nat → List InterruptSet) (n : Nat) :
    Isolated mem mem' (cpu.hosted (fun k => Bus.requestAll (requests k)) mem n)
      (cpu.hosted (fun k => Bus.requestAll (requests k)) mem' n) := by
  have sound := h.sound
  have switch := h.isSome_speed.2 colour
  have lock := Lockstep.behindSwitch (mem.get SpeedSwitch.address) (mem'.get SpeedSwitch.address)
  have other : requestAddress ≠ SpeedSwitch.address := by decide
  have along := lock.indistinct (fun _ => trivial)
    (fun k _ _ => Bus.requestAll_induction (fun lines _ _ => .request other lines) (requests k))
    sound (.refl cpu) ⟨rfl, switch⟩ ⟨alike, rfl, rfl⟩
  obtain ⟨ends, cpu'⟩ := along n
  obtain ⟨record, memories⟩ := ends.cpu.scene.out.bus
  refine ⟨cpu', congrArg List.reverse record, ends.events, ends.fault, memories.elsewhere,
    ⟨memories.here, memories.here'⟩, ?_⟩
  cases n with
  | zero =>
    intro x member
    cases member
  | succ n =>
    -- the last call was made by a processor that still had its switch
    have switched := (along n).1.cpu.scene.out.speed.2
    exact (sound.hosted _ mem n).1.misses_switch switched _

/-- Memory that holds something behind the switch only. -/
def shadowed : Memory := .set .zero SpeedSwitch.address 0xFF

/-- It is still there after as many calls as you like, with a request before each. -/
theorem Reachable.isolated_shadowed :
    Reachable (.new .cgb true) ∧ (Cpu.new .cgb true).model = .cgb
      ∧ (∀ a, a ≠ SpeedSwitch.address → shadowed.get a = Memory.zero.get a)
      ∧ ((Cpu.new .cgb true).hosted (fun _ => Bus.requestAll [⟨0x01⟩]) shadowed 9).bus.inner.get
        SpeedSwitch.address = 0xFF := by
  have reachable : Reachable (.new .cgb true) := .new .cgb true
  have alike (a : UInt16) (off : a ≠ SpeedSwitch.address) : shadowed.get a = Memory.zero.get a :=
    Memory.get_set_of_ne _ _ off.symm
  have isolated := Reachable.isolated reachable rfl alike (fun _ => [⟨0x01⟩]) 9
  exact ⟨reachable, rfl, alike, isolated.kept.2.trans (Memory.get_set ..)⟩

end Sm83
