import Sm83.Proofs.Run.Accesses
import Sm83.Proofs.Run.Completion

/-!
# Changes from outside commute with machine cycles

Peripherals change memory while an instruction is under way.  To the processor it makes no difference
whether they do so before or after a machine cycle, as long as the cycle has no business at the same
address.

* `Commutes` — a computation does the same on a changed bus, and the change can be made afterwards.
  Everything does that only has to do with the processor; an access does if the change does not
  disturb it.
* `Demand.Undisturbed` — that a change of the bus does not disturb what is asked of it.
* `Cpu.Sound.step_commutes` — a call inside an instruction makes its one demand in its machine cycle,
  and what it does before and after has only to do with the processor.
* `Reachable.insensitive` — what follows for flat memory: single bytes, requests, and requests on the
  way to the next boundary.
-/

namespace Sm83

open Machine
open Bus (Access Recorded)

/-- The machine with its bus changed. -/
def Machine.mapBus {β : Type} (f : β → β) (m : Machine β) : Machine β := { m with bus := f m.bus }

/-- What a stretch of machine cycles led to, with the bus changed. -/
def Outcome.mapBus {β : Type} (f : β → β) (o : Outcome β) : Outcome β := { o with bus := f o.bus }

section Commutes

variable {β : Type} {α γ : Type} {f : β → β} {m : Machine β}

/-- On the machine with its bus changed the computation does the same, and the change is all the
difference. -/
def Commutes (f : β → β) (op : MachineM β α) (m : Machine β) : Prop :=
  op (m.mapBus f) = match op m with
    | .ok a m' => .ok a (m'.mapBus f)
    | .error fault m' => .error fault (m'.mapBus f)

namespace Commutes

theorem pure (a : α) : Commutes f (Pure.pure a) m := rfl

theorem bind {x : MachineM β α} {g : α → MachineM β γ} (first : Commutes f x m)
    (second : ∀ a m', x m = .ok a m' → Commutes f (g a) m') : Commutes f (x >>= g) m := by
  show EStateM.bind x g (m.mapBus f) = match EStateM.bind x g m with
    | .ok a m' => .ok a (m'.mapBus f)
    | .error fault m' => .error fault (m'.mapBus f)
  rw [Commutes] at first
  rw [EStateM.bind, EStateM.bind, first]
  cases e : x m with
  | ok a m' => exact second a m' e
  | error fault m' => rfl

theorem onCpu (op : CpuM α) : Commutes f (Machine.onCpu op) m := by
  rw [Commutes, Machine.onCpu, Machine.onCpu, Machine.mapBus]
  cases op m.cpu with
  | ok a cpu => rfl
  | error fault cpu => rfl

theorem getCpu : Commutes f Machine.getCpu m := rfl

theorem modifyCpu (g : Cpu → Cpu) : Commutes f (Machine.modifyCpu g) m := rfl

theorem emit (e : Event) : Commutes f (Machine.emit e) m := rfl

end Commutes

end Commutes

/-! ## Steps -/

section Steps

variable {β : Type} [Bus β] {f : β → β} {m : Machine β}

/-- A change of the bus does not disturb what is asked of it. -/
def Demand.Undisturbed (f : β → β) : Option Demand → Prop
  | none => True
  | some (.read a) => ∀ bus, Bus.read a (f bus) = ((Bus.read a bus).1, f (Bus.read a bus).2)
  | some (.write a value) => ∀ bus, Bus.write a value (f bus) = f (Bus.write a value bus)

/-- Quiet steps that take no machine cycle do not look at the bus. -/
theorem Commutes.control {c : Control} (quiet : (MicroStep.control c).isQuiet = true) :
    Commutes f c.run m := by
  match c with
  | .stop =>
    refine Commutes.getCpu.bind fun cpu m' _ => ?_
    split
    · exact (Commutes.modifyCpu _).bind fun _ _ _ => .emit _
    · exact .emit _
  | .undefined => exact Commutes.getCpu.bind fun cpu m' _ => .emit _
  | .halt | .acknowledge => cases quiet

/-- A row of quiet steps does not up to its next machine cycle. -/
theorem Commutes.runInstant {steps : List MicroStep} (quiet : ∀ s ∈ steps, s.isQuiet = true)
    (m : Machine β) : Commutes f (Machine.runInstant steps) m := by
  induction steps generalizing m with
  | nil => exact .pure _
  | cons s rest ih =>
    have rest (m : Machine β) := ih (fun s' hs => quiet s' (List.mem_cons_of_mem s hs)) m
    match s with
    | .cycle c => exact .pure _
    | .transfer t => exact (Commutes.onCpu t.run).bind fun _ m' _ => rest m'
    | .control c =>
      exact (Commutes.control (quiet _ List.mem_cons_self)).bind fun _ m' _ => rest m'

theorem Commutes.settleLast {steps : List MicroStep} (quiet : ∀ s ∈ steps, s.isQuiet = true)
    (m : Machine β) : Commutes f (Machine.settleLast steps) m := by
  refine (Commutes.runInstant quiet m).bind fun next m' _ => ?_
  split <;> exact .pure _

/-- From a quiet position on, all that is done in no time is done without the bus. -/
theorem Commutes.settle {steps : List MicroStep} {exit : Exit}
    (quiet : Position.Quiet ⟨steps, .exit exit⟩) (m : Machine β) :
    Commutes f (Machine.settle steps exit) m := by
  refine (Commutes.runInstant quiet.steps m).bind fun next m' _ => ?_
  split
  · exact .pure _
  · match exit, quiet with
    | .retire, _ => exact .pure _
    | .branch condition taken leftover, quiet =>
      have plain : ∀ s ∈ taken, s.isPlain = true := List.all_eq_true.1 quiet.ending
      refine Commutes.getCpu.bind fun cpu m' _ => ?_
      split
      · exact .settleLast (fun s hs => MicroStep.isQuiet_of_isPlain (plain s hs)) m'
      · exact (Commutes.onCpu _).bind fun _ _ _ => .pure _
    | .prefixed, _ =>
      refine (Commutes.onCpu _).bind fun opcode m' _ => Commutes.getCpu.bind fun cpu m' _ =>
        (Commutes.emit _).bind fun _ m' _ => ?_
      have plain := (PrefixedInstruction.ofOpcode opcode).plain
      exact .settleLast (fun s hs => MicroStep.isQuiet_of_isPlain (plain s hs)) m'

/-- An access that is not disturbed. -/
theorem Commutes.readBus {a : UInt16} (undisturbed : Demand.Undisturbed f (some (.read a))) :
    Commutes f (Machine.readBus a) m := by
  show EStateM.Result.ok (Bus.read a (f m.bus)).1 (Machine.mk m.cpu (Bus.read a (f m.bus)).2 m.events)
    = .ok (Bus.read a m.bus).1 ⟨m.cpu, f (Bus.read a m.bus).2, m.events⟩
  rw [undisturbed m.bus]

theorem Commutes.writeBus {a : UInt16} {value : UInt8}
    (undisturbed : Demand.Undisturbed f (some (.write a value))) :
    Commutes f (Machine.writeBus a value) m := by
  show EStateM.Result.ok () (Machine.mk m.cpu (Bus.write a value (f m.bus)) m.events)
    = .ok () ⟨m.cpu, f (Bus.write a value m.bus), m.events⟩
  rw [undisturbed m.bus]

/-- A data access does not reach the bus, or is not disturbed there. -/
theorem Commutes.readData {a : UInt16}
    (undisturbed : Demand.Undisturbed f (Demand.unlessSwitch m.cpu.speed a (.read a))) :
    Commutes f (Machine.readData a) m := by
  refine Commutes.getCpu.bind fun cpu m' e => ?_
  cases e
  rw [Demand.unlessSwitch] at undisturbed
  rw [speedSwitchAt?]
  split
  · exact (Commutes.emit _).bind fun _ _ _ => .pure _
  next none =>
    rw [none] at undisturbed
    exact .readBus undisturbed

theorem Commutes.writeData {a : UInt16} {value : UInt8}
    (undisturbed : Demand.Undisturbed f (Demand.unlessSwitch m.cpu.speed a (.write a value))) :
    Commutes f (Machine.writeData a value) m := by
  refine Commutes.getCpu.bind fun cpu m' e => ?_
  cases e
  rw [Demand.unlessSwitch] at undisturbed
  rw [speedSwitchAt?]
  split
  · exact (Commutes.modifyCpu _).bind fun _ _ _ => .emit _
  next none =>
    rw [none] at undisturbed
    exact .writeBus undisturbed

/-- A machine cycle whose demand is not disturbed. -/
theorem Commutes.machineCycle {c : MachineCycle} {r : List UInt8 × Outside β}
    (acts : c.act m.cpu.scratch.toList ⟨m.cpu.speed, m.bus, m.events⟩ = some r)
    (undisturbed : Demand.Undisturbed f (c.demand? m.cpu.speed m.cpu.scratch.toList)) :
    Commutes f c.run m := by
  -- that the cycle acts on the scene tells which bytes it takes its address from
  generalize stack : m.cpu.scratch.toList = xs at acts undisturbed
  have shown : m.scene [] = ⟨xs, m.cpu.core, m.cpu.speed, m.bus, m.events⟩ := by
    rw [Machine.scene, stack]
    rfl
  cases c with
  | delay => exact .pure _
  | read =>
    rcases xs with _ | ⟨hi, _ | ⟨lo, xs⟩⟩
    · cases acts
    · cases acts
    · obtain ⟨m₁, pops, shown₁, -⟩ := Performs.popWord _ _ hi lo [] m shown
      refine (Commutes.onCpu _).bind fun a m' e => ?_
      rw [pops] at e
      cases e
      have speed : m₁.cpu.speed = m.cpu.speed := congrArg (fun v : Scene β => v.out.speed) shown₁
      refine (Commutes.readData ?_).bind fun value m' _ => .onCpu _
      rw [speed]
      exact undisturbed
  | write =>
    rcases xs with _ | ⟨hi, _ | ⟨lo, _ | ⟨value, xs⟩⟩⟩
    · cases acts
    · cases acts
    · cases acts
    · obtain ⟨m₁, pops, shown₁, -⟩ := Performs.popWord _ _ hi lo [] m shown
      obtain ⟨m₂, pops', shown₂, -⟩ := Performs.popByte _ _ value [] m₁ shown₁
      refine (Commutes.onCpu _).bind fun a m' e => (Commutes.onCpu _).bind fun v m'' e' => ?_
      rw [pops] at e
      cases e
      rw [pops'] at e'
      cases e'
      have speed : m₂.cpu.speed = m.cpu.speed := congrArg (fun v : Scene β => v.out.speed) shown₂
      refine Commutes.writeData ?_
      rw [speed]
      exact undisturbed

/-! ## Calls -/

/-- A suspended instruction that makes an undisturbed demand. -/
theorem Commutes.resume {s : Suspension} (h : s.position.Balanced m.cpu.scratch.depth)
    (quiet : s.position.Quiet)
    (undisturbed : Demand.Undisturbed f (s.cycle.demand? m.cpu.speed m.cpu.scratch.toList)) :
    Commutes f (Machine.resume s) m := by
  obtain ⟨r, m', -, acts, -⟩ := Position.advance_of_balanced h
  obtain ⟨w, acts, -⟩ := Option.map_eq_some_iff.1 acts
  obtain ⟨⟨ys, o⟩, acts, -⟩ := Option.map_eq_some_iff.1 acts
  refine (Commutes.machineCycle acts undisturbed).bind fun _ m' _ => ?_
  exact .settle ⟨fun s' hs => quiet.steps s' (List.mem_cons_of_mem _ hs), quiet.ending⟩ m'

/-- A call inside an instruction commutes with changes of the bus that do not disturb its demand. -/
theorem Cpu.Sound.step_commutes {cpu : Cpu} {s : Suspension} (h : cpu.Sound)
    (under : cpu.suspended = some s) (undisturbed : Demand.Undisturbed f cpu.demand?) (bus : β) :
    cpu.step (f bus) = (cpu.step bus).mapBus f := by
  obtain ⟨balanced, micro⟩ := h.within s under
  rw [Cpu.demand?, under, Option.bind_some] at undisturbed
  have commutes : Commutes f Machine.cycle ⟨cpu, bus, []⟩ := by
    refine Commutes.bind (x := Machine.beginCycle) rfl fun next m' e => ?_
    cases e
    rw [under]
    exact (Commutes.resume balanced micro.quiet undisturbed).bind fun _ _ _ => .modifyCpu _
  have cycles : Machine.cycle ⟨cpu, f bus, []⟩ = _ := commutes
  rw [Cpu.step, cycles, Cpu.step]
  cases Machine.cycle ⟨cpu, bus, []⟩ with
  | ok _ m => rfl
  | error fault m => rfl

end Steps

/-! ## Flat memory -/

/-- The memory with one byte changed into another, which may depend on it. -/
def Memory.update (a : UInt16) (g : UInt8 → UInt8) (mem : Memory) : Memory :=
  mem.set a (g (mem.get a))

/-- A change behind the record. -/
def Bus.Recorded.poke {β : Type} (f : β → β) (b : Recorded β) : Recorded β :=
  { b with inner := f b.inner }

/-- What is asked at other addresses is not disturbed. -/
theorem Demand.undisturbed_update {d : Option Demand} {mem : Memory} {a : UInt16}
    (elsewhere : ∀ access ∈ accesses d mem, access.address ≠ a) (g : UInt8 → UInt8) :
    Undisturbed (Memory.update a g) d := by
  match d with
  | none => exact trivial
  | some (.read b) =>
    have ne : b ≠ a := elsewhere _ List.mem_cons_self
    intro mem
    exact Prod.ext (mem.get_set_of_ne _ ne.symm) rfl
  | some (.write b value) =>
    have ne : b ≠ a := elsewhere _ List.mem_cons_self
    intro mem
    show (mem.set a (g (mem.get a))).set b value
      = (mem.set b value).set a (g ((mem.set b value).get a))
    rw [mem.get_set_of_ne _ ne, mem.set_comm _ _ ne.symm]

/-- Nor is it on record. -/
theorem Demand.Undisturbed.poke {β : Type} [Bus β] {f : β → β} {d : Option Demand}
    (h : Undisturbed f d) : Undisturbed (Recorded.poke f) d := by
  rcases d with _ | ⟨a⟩ | ⟨a, value⟩
  · exact trivial
  · rintro ⟨latest, bus⟩
    exact congrArg (fun p : UInt8 × β => (p.1, Recorded.mk (.read a p.1 :: latest) p.2)) (h bus)
  · rintro ⟨latest, bus⟩
    exact congrArg (Recorded.mk (.write a value :: latest)) (h bus)

section Flat

variable {cpu : Cpu} {s : Suspension} {o : Outcome (Recorded Memory)} {a : UInt16}

/-- A byte can be changed before a call inside an instruction or after it, if the call has no access
there. -/
theorem Cpu.Sound.step_update (h : cpu.Sound) (under : cpu.suspended = some s) {b : Recorded Memory}
    (elsewhere : ∀ access ∈ (cpu.step b).bus.latest, access.address ≠ a) (g : UInt8 → UInt8) :
    cpu.step (b.poke (Memory.update a g)) = (cpu.step b).mapBus (.poke (Memory.update a g)) := by
  have undisturbed : Demand.Undisturbed (Memory.update a g) cpu.demand? := by
    have demanded (access : Access) (asked : access ∈ Demand.accesses cpu.demand? b.inner) :
        access.address ≠ a := by
      refine elsewhere access ?_
      rw [h.latest_inside under]
      exact List.mem_append_left _ (List.mem_reverse.2 asked)
    exact Demand.undisturbed_update demanded g
  exact h.step_commutes under undisturbed.poke b

/-- Going on adds to the record. -/
theorem Cpu.Sound.latest_subset_toBoundary (h : o.cpu.Sound) (faultless : o.fault = none)
    (limit : Nat) : o.bus.latest ⊆ (o.toBoundary limit).bus.latest := by
  refine toBoundary_induction
    (P := fun limit (o : Outcome (Recorded Memory)) =>
      o.bus.latest ⊆ (o.toBoundary limit).bus.latest) ?_ ?_ ?_ h faultless limit
  · exact fun o _ _ => List.Subset.refl _
  · intro limit o _ _ boundary
    rw [Outcome.toBoundary_of_boundary boundary]
    exact List.Subset.refl _
  · intro limit o s sound faultless under later
    rw [Outcome.toBoundary_of_inside faultless (Cpu.atBoundary_eq_false_iff.2 ⟨s, under⟩)]
    refine List.Subset.trans ?_ later
    rw [Outcome.next_of_faultless faultless]
    show o.bus.latest ⊆ (o.cpu.step o.bus).bus.latest
    rw [sound.latest_inside under]
    exact List.subset_append_right _ _

/-- One call more, after the change or before it. -/
theorem Cpu.Sound.next_update (h : o.cpu.Sound) (faultless : o.fault = none)
    (under : o.cpu.suspended = some s)
    (elsewhere : ∀ access ∈ o.next.bus.latest, access.address ≠ a) (g : UInt8 → UInt8) :
    (o.mapBus (.poke (Memory.update a g))).next = o.next.mapBus (.poke (Memory.update a g)) := by
  let changed := o.mapBus (.poke (Memory.update a g))
  have faultless' : changed.fault = none := faultless
  rw [Outcome.next_of_faultless faultless] at elsewhere ⊢
  have step : changed.cpu.step changed.bus = (o.cpu.step o.bus).mapBus _ :=
    h.step_update under elsewhere g
  rw [Outcome.next_of_faultless faultless', step]
  rfl

/-- So the byte can be changed at any moment up to the next boundary, if no call on the way has an
access there. -/
theorem Cpu.Sound.toBoundary_update (h : o.cpu.Sound) (faultless : o.fault = none) {limit : Nat}
    (elsewhere : ∀ access ∈ (o.toBoundary limit).bus.latest, access.address ≠ a)
    (g : UInt8 → UInt8) :
    (o.mapBus (.poke (Memory.update a g))).toBoundary limit
      = (o.toBoundary limit).mapBus (.poke (Memory.update a g)) := by
  refine toBoundary_induction
    (P := fun limit (o : Outcome (Recorded Memory)) =>
      (∀ access ∈ (o.toBoundary limit).bus.latest, access.address ≠ a) →
        (o.mapBus (.poke (Memory.update a g))).toBoundary limit
          = (o.toBoundary limit).mapBus (.poke (Memory.update a g)))
    ?_ ?_ ?_ h faultless limit elsewhere
  · exact fun o _ _ _ => rfl
  · intro limit o _ _ boundary _
    have changed : (o.mapBus (.poke (Memory.update a g))).cpu.atBoundary = true := boundary
    rw [Outcome.toBoundary_of_boundary boundary, Outcome.toBoundary_of_boundary changed]
  · intro limit o s sound faultless under later elsewhere
    have inside := Cpu.atBoundary_eq_false_iff.2 ⟨s, under⟩
    have faultless' : (o.mapBus (.poke (Memory.update a g))).fault = none := faultless
    have inside' : (o.mapBus (.poke (Memory.update a g))).cpu.atBoundary = false := inside
    rw [Outcome.toBoundary_of_inside faultless inside] at elsewhere ⊢
    -- what the next call puts on record is still there at the boundary
    obtain ⟨sound', kept⟩ := sound.next_of_inside faultless under
    have sooner : ∀ access ∈ o.next.bus.latest, access.address ≠ a :=
      fun access made => elsewhere access (sound'.latest_subset_toBoundary kept limit made)
    rw [Outcome.toBoundary_of_inside faultless' inside', sound.next_update faultless under sooner]
    exact later elsewhere

end Flat

/-- What is promised of changes of flat memory while an instruction is under way. -/
structure Insensitive (cpu : Cpu) (mem : Memory) : Prop where
  /-- A byte can be written before a call or after it, if the call has no access to it. -/
  poke : ∀ a value, (∀ access ∈ (cpu.step (Recorded.mk [] mem)).bus.accesses, access.address ≠ a) →
    cpu.step (Recorded.mk [] (mem.set a value))
      = (cpu.step (Recorded.mk [] mem)).mapBus (.poke (·.set a value))
  /-- Requests can be raised before a call or after it, if the call has no access to their register. -/
  request : ∀ lines,
    (∀ access ∈ (cpu.step (Recorded.mk [] mem)).bus.accesses, access.address ≠ requestAddress) →
      cpu.step (Recorded.mk [] (Bus.request lines mem))
        = (cpu.step (Recorded.mk [] mem)).mapBus (.poke (Bus.request lines))
  /-- The next boundary is reached, and requests can be raised at once, after any number of the calls on
  the way, or there, if no call on the way has an access to their register. -/
  boundary :
    let now := Outcome.start cpu (Recorded.mk [] mem)
    let last := now.toBoundary longestInstruction
    last.fault = none ∧ last.cpu.atBoundary = true ∧ ∀ lines,
      (∀ access ∈ last.bus.accesses, access.address ≠ requestAddress) →
        ∀ k, ((now.toBoundary k).mapBus (.poke (Bus.request lines))).toBoundary longestInstruction
          = last.mapBus (.poke (Bus.request lines))

/-- Wherever an instruction or a dispatch stands, changes of memory commute with its calls. -/
theorem Reachable.insensitive {cpu : Cpu} (h : Reachable cpu) (inside : cpu.atBoundary = false)
    (mem : Memory) : Insensitive cpu mem := by
  obtain ⟨s, under⟩ := Cpu.atBoundary_eq_false_iff.1 inside
  have sound := h.sound
  refine ⟨?_, ?_, ?_⟩
  · intro a value elsewhere
    exact sound.step_update under (fun access made => elsewhere access (List.mem_reverse.2 made))
      fun _ => value
  · intro lines elsewhere
    exact sound.step_update under (fun access made => elsewhere access (List.mem_reverse.2 made))
      (· ||| lines.bits)
  · intro now last
    have faultless : now.fault = none := rfl
    refine ⟨(sound.toBoundary_sound faultless _).2, sound.toBoundary_longest faultless, ?_⟩
    intro lines elsewhere k
    obtain ⟨sound', faultless'⟩ := sound.toBoundary_sound faultless k
    have same : (now.toBoundary k).toBoundary longestInstruction = last :=
      sound.toBoundary_toBoundary faultless k
    refine (sound'.toBoundary_update faultless' ?_ (· ||| lines.bits)).trans ?_
    · rw [same]
      exact fun access made => elsewhere access (List.mem_reverse.2 made)
    · rw [same]
      rfl

/-- A processor after the fetch of an `RST`, which waits for a machine cycle without an access. -/
def restarting : Cpu := ((Cpu.new .dmg true).step openBus).cpu

/-- During that cycle all of memory can change. -/
theorem Reachable.insensitive_restarting :
    Reachable restarting ∧ restarting.atBoundary = false ∧ Insensitive restarting .zero
      ∧ ∀ a value, restarting.step (Recorded.mk [] (Memory.zero.set a value))
        = (restarting.step (Recorded.mk [] .zero)).mapBus (.poke (·.set a value)) := by
  have reachable : Reachable restarting := .step (.new .dmg true) openBus
  have inside : restarting.atBoundary = false := by decide +kernel
  have insensitive := Reachable.insensitive reachable inside .zero
  refine ⟨reachable, inside, insensitive, fun a value => insensitive.poke a value ?_⟩
  have nothing : restarting.demand? = none := by decide +kernel
  rw [(reachable.sound.accesses_inside inside Memory.zero).2, nothing]
  exact fun access made => absurd made List.not_mem_nil

end Sm83
