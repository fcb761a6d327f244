import Sm83.Cpu.Machine

/-!
# What a micro-step sees

A machine holds more than an instruction can notice.  Above the depth of the scratch stack lie bytes
of earlier use, and the model, the clock and the suspended instruction are never looked at while steps
are carried out.  This file cuts a machine along those lines.

* `Core` — the registers and the interrupt state, which steps inside the processor compute with.
* `Outside` — the speed switch, the bus and the events, which data accesses and polls reach.
* `Scene` — both, with the bytes on the scratch stack as a list: all that a step can depend on.
* `Frame` — the rest, which no step changes.

`Performs op v a v'` says that `op` leads from every machine that shows the scene `v` to one that
shows `v'`, in the same frame, with the answer `a` and without a fault.  It composes
(`Performs.bind`), so a row of steps is followed through lists and never through buffers.

Events are counted from an arbitrary point on: a machine whose record starts empty shows the events
`before` it as well.  That is what lets the cycles of one instruction, each with a record of its own,
be read as one run.
-/

namespace Sm83

/-! ## The parts of a machine -/

/-- The part of a processor that steps compute with. -/
structure Core where
  regs : Registers
  ime : Bool
  imePending : Bool
  imeDelay : Bool
  halted : Bool
  haltBug : Bool
  opcodeAddress : UInt16
  deriving DecidableEq, Repr

/-- The part of a processor that no step changes. -/
structure Frame where
  model : Model
  suspended : Option Suspension
  cycles : Nat
  deriving DecidableEq, Repr

namespace Cpu

/-- What steps compute with. -/
def core (cpu : Cpu) : Core :=
  { regs := cpu.regs
    ime := cpu.ime
    imePending := cpu.imePending
    imeDelay := cpu.imeDelay
    halted := cpu.halted
    haltBug := cpu.haltBug
    opcodeAddress := cpu.opcodeAddress }

/-- What no step changes. -/
def frame (cpu : Cpu) : Frame := ⟨cpu.model, cpu.suspended, cpu.cycles⟩

end Cpu

/-- What data accesses and polls reach, and the record of events. -/
structure Outside (β : Type) where
  speed : Option SpeedSwitch
  bus : β
  events : List Event

/-- All that a step can depend on. -/
structure Scene (β : Type) where
  /-- The bytes on the scratch stack, top first. -/
  stack : List UInt8
  core : Core
  out : Outside β

variable {β : Type}

/-- The scene that a machine shows, with some events before its record. -/
def Machine.scene (before : List Event) (m : Machine β) : Scene β :=
  ⟨m.cpu.scratch.toList, m.cpu.core, ⟨m.cpu.speed, m.bus, before ++ m.events⟩⟩

/-- The depth of the scratch stack can be seen. -/
theorem Machine.depth_of_scene {before : List Event} {m : Machine β} {v : Scene β}
    (h : m.scene before = v) : m.cpu.scratch.depth = v.stack.length := by
  rw [← h, ← ScratchStack.length_toList]
  rfl

/-! ## Accesses -/

namespace Outside

/-- Record an event. -/
def note (o : Outside β) (e : Event) : Outside β := { o with events := o.events ++ [e] }

/-- The speed switch that a data access to an address reaches instead of the bus. -/
def speedAt? (o : Outside β) (a : UInt16) : Option SpeedSwitch :=
  if a = SpeedSwitch.address then o.speed else none

variable [Bus β]

/-- Read data. -/
def load (a : UInt16) (o : Outside β) : UInt8 × Outside β :=
  match o.speedAt? a with
  | some speed => (speed.read, o.note (.speedRead speed.read))
  | none => ((Bus.read a o.bus).1, { o with bus := (Bus.read a o.bus).2 })

/-- Reading changes no speed. -/
theorem load_speed (a : UInt16) (o : Outside β) : (o.load a).2.speed = o.speed := by
  rw [load]
  split <;> rfl

/-- Write data. -/
def store (a : UInt16) (value : UInt8) (o : Outside β) : Outside β :=
  match o.speedAt? a with
  | some speed => { o with speed := some (speed.write value) }.note (.speedWritten value)
  | none => { o with bus := Bus.write a value o.bus }

omit [Bus β] in
/-- Where there is a speed switch, other addresses belong to the bus; and where there is none, all. -/
theorem speedAt?_eq_none {o : Outside β} {a : UInt16}
    (off : o.speed.isSome = true → a ≠ SpeedSwitch.address) : o.speedAt? a = none := by
  rw [speedAt?]
  split
  next reached => exact Option.not_isSome_iff_eq_none.1 fun switch => off switch reached
  next => rfl

/-- There the bus answers. -/
theorem load_of_off {o : Outside β} {a : UInt16}
    (off : o.speed.isSome = true → a ≠ SpeedSwitch.address) :
    o.load a = ((Bus.read a o.bus).1, { o with bus := (Bus.read a o.bus).2 }) := by
  rw [load, speedAt?_eq_none off]

/-- And takes what is written. -/
theorem store_of_off {o : Outside β} {a : UInt16}
    (off : o.speed.isSome = true → a ≠ SpeedSwitch.address) (value : UInt8) :
    o.store a value = { o with bus := Bus.write a value o.bus } := by
  rw [store, speedAt?_eq_none off]

end Outside

variable [Bus β]

/-- The bytes of the two interrupt registers, enables first, and the bus after they were read. -/
def Bus.interruptBytes (bus : β) : UInt8 × UInt8 × β :=
  let enabled := Bus.read enableAddress bus
  let requested := Bus.read requestAddress enabled.2
  (enabled.1, requested.1, requested.2)

/-- The lines that are requested and enabled, and the bus after they were polled. -/
def Bus.poll (bus : β) : InterruptSet × β :=
  let bytes := interruptBytes bus
  (.ofByte (bytes.1 &&& bytes.2.1), bytes.2.2)

/-! ## Following a computation through scenes -/

/-- From every machine that shows `v`, the computation answers `a` and leads to a machine that shows
`v'` in the same frame. -/
def Performs {α : Type} (op : MachineM β α) (v : Scene β) (a : α) (v' : Scene β) : Prop :=
  ∀ before m, m.scene before = v →
    ∃ m', op m = .ok a m' ∧ m'.scene before = v' ∧ m'.cpu.frame = m.cpu.frame

namespace Performs

open Machine

variable {α γ : Type} {v v' v'' : Scene β}

omit [Bus β] in
theorem pure (a : α) (v : Scene β) : Performs (Pure.pure a) v a v :=
  fun _ m h => ⟨m, rfl, h, rfl⟩

omit [Bus β] in
theorem bind {x : MachineM β α} {f : α → MachineM β γ} {a : α} {c : γ}
    (hx : Performs x v a v') (hf : Performs (f a) v' c v'') : Performs (x >>= f) v c v'' := by
  intro before m h
  obtain ⟨m', e, h', k⟩ := hx before m h
  obtain ⟨m'', e', h'', k'⟩ := hf before m' h'
  refine ⟨m'', ?_, h'', k'.trans k⟩
  change EStateM.bind x f m = _
  rw [EStateM.bind, e]
  exact e'

omit [Bus β] in
/-- Computations on the processor alone compose in the same way. -/
theorem onCpu_bind {x : CpuM α} {f : α → CpuM γ} {a : α} {c : γ}
    (hx : Performs (onCpu x) v a v') (hf : Performs (onCpu (f a)) v' c v'') :
    Performs (onCpu (x >>= f)) v c v'' := by
  intro before m h
  obtain ⟨m'', e, h'', k⟩ := (hx.bind (f := fun a => onCpu (f a)) hf) before m h
  refine ⟨m'', ?_, h'', k⟩
  rw [← e]
  change onCpu (EStateM.bind x f) m = EStateM.bind (onCpu x) (fun a => onCpu (f a)) m
  simp only [onCpu, EStateM.bind]
  cases x m.cpu with
  | ok a cpu => rfl
  | error fault cpu => rfl

omit [Bus β] in
theorem onCpu_pure (a : α) (v : Scene β) : Performs (onCpu (Pure.pure a)) v a v :=
  fun _ m h => ⟨m, rfl, h, rfl⟩

/-! ### The processor's own operations -/

section Processor

variable (c : Core) (o : Outside β) {xs : List UInt8}

omit [Bus β]

theorem getRegs : Performs (onCpu Cpu.getRegs) ⟨xs, c, o⟩ c.regs ⟨xs, c, o⟩ := by
  rintro before m ⟨⟩
  exact ⟨m, rfl, rfl, rfl⟩

theorem modifyRegs (f : Registers → Registers) :
    Performs (onCpu (Cpu.modifyRegs f)) ⟨xs, c, o⟩ () ⟨xs, { c with regs := f c.regs }, o⟩ := by
  rintro before m ⟨⟩
  exact ⟨_, rfl, rfl, rfl⟩

theorem pushByte (value : UInt8) (h : xs.length < scratchCapacity) :
    Performs (onCpu (Cpu.pushByte value)) ⟨xs, c, o⟩ () ⟨value :: xs, c, o⟩ := by
  rintro before m ⟨⟩
  obtain ⟨s, e, hs⟩ := ScratchStack.pushByte_of_lt m.cpu.scratch value h
  refine ⟨{ m with cpu := { m.cpu with scratch := s } }, ?_, ?_, rfl⟩
  · simp only [onCpu, Cpu.pushByte, Cpu.onScratch, e]
  · simp only [Machine.scene, hs]
    rfl

theorem popByte (value : UInt8) :
    Performs (onCpu Cpu.popByte) ⟨value :: xs, c, o⟩ value ⟨xs, c, o⟩ := by
  rintro before m h
  obtain ⟨s, e, hs⟩ := ScratchStack.popByte_of_cons m.cpu.scratch (congrArg Scene.stack h)
  refine ⟨{ m with cpu := { m.cpu with scratch := s } }, ?_, ?_, rfl⟩
  · simp only [onCpu, Cpu.popByte, Cpu.onScratch, e]
  · simp only [Machine.scene, hs]
    exact congrArg (fun v : Scene β => (⟨xs, v.core, v.out⟩ : Scene β)) h

omit [Bus β] in
/-- An operation of the scratch stack that is two operations is two operations on the processor. -/
theorem onScratch_bind {x : EStateM Fault ScratchStack α} {f : α → EStateM Fault ScratchStack γ} :
    Cpu.onScratch (x >>= f) = Cpu.onScratch x >>= fun a => Cpu.onScratch (f a) := by
  funext cpu
  change Cpu.onScratch (EStateM.bind x f) cpu
    = EStateM.bind (Cpu.onScratch x) (fun a => Cpu.onScratch (f a)) cpu
  simp only [Cpu.onScratch, EStateM.bind]
  cases x cpu.scratch with
  | ok a s => rfl
  | error fault s => rfl

theorem pushWord (value : UInt16) (h : xs.length + 1 < scratchCapacity) :
    Performs (onCpu (Cpu.pushWord value)) ⟨xs, c, o⟩ ()
      ⟨Word.high value :: Word.low value :: xs, c, o⟩ := by
  rw [Cpu.pushWord, ScratchStack.pushWord, onScratch_bind]
  exact onCpu_bind (pushByte c o _ (Nat.lt_of_succ_lt h)) (pushByte c o _ h)

theorem popWord (hi lo : UInt8) :
    Performs (onCpu Cpu.popWord) ⟨hi :: lo :: xs, c, o⟩ (Word.ofBytes hi lo) ⟨xs, c, o⟩ := by
  rw [Cpu.popWord, ScratchStack.popWord, onScratch_bind]
  simp only [onScratch_bind]
  exact onCpu_bind (popByte c o _) (onCpu_bind (popByte c o _) (onCpu_pure _ _))

/-- Dropping bytes takes them off the list. -/
theorem drop (n : Nat) (h : n ≤ xs.length) :
    Performs (onCpu (Cpu.onScratch (ScratchStack.drop n))) ⟨xs, c, o⟩ ()
      ⟨xs.drop n, c, o⟩ := by
  induction n generalizing xs with
  | zero => exact onCpu_pure () _
  | succ n ih =>
    cases xs with
    | nil => exact absurd h (Nat.not_succ_le_zero n)
    | cons value xs =>
      rw [ScratchStack.drop, onScratch_bind]
      exact onCpu_bind (popByte c o value) (ih (Nat.le_of_succ_le_succ h))

end Processor

/-! ### Accesses -/

section Accesses

variable (xs : List UInt8) (c : Core) (o : Outside β)

omit [Bus β] in
theorem emit (e : Event) : Performs (Machine.emit e) ⟨xs, c, o⟩ () ⟨xs, c, o.note e⟩ := by
  rintro before m ⟨⟩
  refine ⟨_, rfl, ?_, rfl⟩
  simp only [Machine.scene, Outside.note, List.append_assoc]

omit [Bus β] in
/-- What comes after a look at the processor is carried out with that processor. -/
theorem getCpu_bind {α : Type} (f : Cpu → MachineM β α) (m : Machine β) :
    (Machine.getCpu >>= f) m = f m.cpu m := rfl

omit [Bus β] in
/-- The machine and its scene agree on which accesses the speed switch answers. -/
theorem speedAt?_scene (cpu : Cpu) (bus : β) (events : List Event) (a : UInt16) :
    (Outside.mk cpu.speed bus events).speedAt? a = speedSwitchAt? cpu a := rfl

theorem readData (a : UInt16) :
    Performs (Machine.readData a) ⟨xs, c, o⟩ (o.load a).1 ⟨xs, c, (o.load a).2⟩ := by
  rintro before m ⟨⟩
  rw [Machine.readData, getCpu_bind, Outside.load, speedAt?_scene]
  cases speedSwitchAt? m.cpu a with
  | some speed =>
    exact (emit _ _ _ (.speedRead speed.read)).bind (Performs.pure speed.read _) before m rfl
  | none => exact ⟨_, rfl, rfl, rfl⟩

theorem writeData (a : UInt16) (value : UInt8) :
    Performs (Machine.writeData a value) ⟨xs, c, o⟩ () ⟨xs, c, o.store a value⟩ := by
  rintro before m ⟨⟩
  rw [Machine.writeData, getCpu_bind, Outside.store, speedAt?_scene]
  cases speedSwitchAt? m.cpu a with
  | some speed => exact emit _ _ ⟨some (speed.write value), m.bus, before ++ m.events⟩ _ before _ rfl
  | none => exact ⟨_, rfl, rfl, rfl⟩

theorem readBus (a : UInt16) :
    Performs (Machine.readBus a) ⟨xs, c, o⟩ (Bus.read a o.bus).1
      ⟨xs, c, { o with bus := (Bus.read a o.bus).2 }⟩ := by
  rintro before m ⟨⟩
  exact ⟨_, rfl, rfl, rfl⟩

theorem writeBus (a : UInt16) (value : UInt8) :
    Performs (Machine.writeBus a value) ⟨xs, c, o⟩ ()
      ⟨xs, c, { o with bus := Bus.write a value o.bus }⟩ := by
  rintro before m ⟨⟩
  exact ⟨_, rfl, rfl, rfl⟩

theorem pollInterrupts :
    Performs Machine.pollInterrupts ⟨xs, c, o⟩ (Bus.poll o.bus).1
      ⟨xs, c, { o with bus := (Bus.poll o.bus).2 }⟩ :=
  (readBus xs c o _).bind <| (readBus xs c _ _).bind <| Performs.pure _ _

end Accesses

end Performs

end Sm83
