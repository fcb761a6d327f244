import Sm83.Proofs.Microstep.Depth

/-!
# Steps that keep quiet

Interrupts concern few steps.  Only a `HALT` and an acknowledge look at the interrupt registers, and
besides the acknowledge only three transfers change whether interrupts are enabled.  All other steps
of an instruction are blind to interrupts, and those that an instruction waits with are among them.

* `Gate` — the bits that decide whether interrupts are served, and what each step does to them.
* `milestones` — of all events, those that make the history of the interrupt state: instructions
  begin, and interrupts are served.
* `Demand` — what a step asks of the bus.
* `Position.Quiet` — from this position to the end of the instruction nobody looks at the interrupt
  registers.
* `Position.due` — the gate that the rest of the instruction will leave.

* `Upshot` — what the instruction will come to: the gate that is due, whether the processor is
  halted, the milestones, and the bus.

A quiet move settles nothing new.  It leaves the upshot as it is, except that the bus meets one demand
if the move makes one (`Position.Quiet.act`).
-/

namespace Sm83

/-! ## The gate -/

/-- The bits that decide whether interrupts are served. -/
structure Gate where
  /-- Interrupts are enabled. -/
  ime : Bool
  /-- Enabling was asked for since the last boundary. -/
  pending : Bool
  /-- Enabling is due at the next boundary. -/
  delay : Bool
  deriving DecidableEq, Repr

namespace Gate

/-- Interrupts are disabled and nothing is scheduled. -/
def closed : Gate := ⟨false, false, false⟩

/-- The gate after a boundary. -/
def commit (g : Gate) : Gate := ⟨g.ime || g.delay, g.pending && g.delay, g.pending && !g.delay⟩

end Gate

/-- The gate of a core. -/
def Core.gate (c : Core) : Gate := ⟨c.ime, c.imePending, c.imeDelay⟩

/-- The gate of a processor. -/
def Cpu.gate (cpu : Cpu) : Gate := cpu.core.gate

/-- What a step does to the gate. -/
def MicroStep.onGate : MicroStep → Gate → Gate
  | .transfer .enableInterruptsLater, g => { g with pending := g.pending || !g.ime }
  | .transfer .disableInterrupts, _ | .control .acknowledge, _ => .closed
  | .transfer .enableInterrupts, g => { g with ime := true }
  | _, g => g

/-! ## Milestones -/

/-- Whether an event begins an instruction or serves an interrupt. -/
def Event.isMilestone : Event → Bool
  | .decoded .base _ _ | .dispatched _ _ _ _ _ => true
  | _ => false

/-- The events that begin an instruction or serve an interrupt. -/
def milestones (events : List Event) : List Event := events.filter Event.isMilestone

theorem milestones_append (events later : List Event) :
    milestones (events ++ later) = milestones events ++ milestones later := List.filter_append ..

section Note

variable {β : Type}

theorem Outside.milestones_note (o : Outside β) {e : Event} (h : e.isMilestone = false) :
    milestones (o.note e).events = milestones o.events := by
  have alone : milestones [e] = [] := by
    simp only [milestones, List.filter_cons, h, Bool.false_eq_true, if_false, List.filter_nil]
  show milestones (o.events ++ [e]) = _
  rw [milestones_append, alone, List.append_nil]

end Note

/-! ## Demands on the bus -/

/-- Something asked of the bus. -/
inductive Demand
  /-- Read from an address. -/
  | read (a : UInt16)
  /-- Write to an address. -/
  | write (a : UInt16) (value : UInt8)
  deriving DecidableEq, Repr

/-- The bus after it has met a demand, if there was one. -/
def Demand.meet {β : Type} [Bus β] : Option Demand → β → β
  | none, bus => bus
  | some (.read a), bus => (Bus.read a bus).2
  | some (.write a value), bus => Bus.write a value bus

/-- A demand at an address, unless the speed switch answers there. -/
def Demand.unlessSwitch (speed : Option SpeedSwitch) (a : UInt16) (d : Demand) : Option Demand :=
  match if a = SpeedSwitch.address then speed else none with
  | some _ => none
  | none => some d

/-- What a machine cycle asks of the bus, with these bytes on the scratch stack. -/
def MachineCycle.demand? (speed : Option SpeedSwitch) : MachineCycle → List UInt8 → Option Demand
  | .read, hi :: lo :: _ =>
    let a := Word.ofBytes hi lo
    Demand.unlessSwitch speed a (.read a)
  | .write, hi :: lo :: value :: _ =>
    let a := Word.ofBytes hi lo
    Demand.unlessSwitch speed a (.write a value)
  | _, _ => none

/-- What the next step at a position asks of the bus. -/
def Position.demand? {β : Type} : Position → Scene β → Option Demand
  | ⟨.cycle c :: _, _⟩, v => c.demand? v.out.speed v.stack
  | _, _ => none

/-- Positions in front of a step in no time ask for nothing. -/
theorem Position.demand?_of_instant {β : Type} {p : Position} (v : Scene β)
    (instant : p.waiting = false) : p.demand? v = none := by
  obtain ⟨steps, ending⟩ := p
  match steps with
  | .cycle c :: rest => cases instant
  | .transfer t :: rest | .control c :: rest => rfl
  | [] => rfl

/-! ## Quiet steps -/

/-- Whether a step leaves the interrupt registers alone. -/
def MicroStep.isQuiet : MicroStep → Bool
  | .control .halt | .control .acknowledge => false
  | _ => true

/-- Whether a step leaves the gate alone, too. -/
def MicroStep.isPlain : MicroStep → Bool
  | .transfer .enableInterruptsLater | .transfer .disableInterrupts
  | .transfer .enableInterrupts => false
  | s => s.isQuiet

theorem MicroStep.isQuiet_of_isPlain {s : MicroStep} (h : s.isPlain = true) : s.isQuiet = true := by
  match s with
  | .transfer _ | .cycle _ => rfl
  | .control .stop | .control .undefined => rfl
  | .control .halt | .control .acknowledge => cases h

theorem MicroStep.onGate_of_isPlain {s : MicroStep} (h : s.isPlain = true) (g : Gate) :
    s.onGate g = g := by
  match s with
  | .transfer t =>
    cases t with
    | enableInterruptsLater | disableInterrupts | enableInterrupts => cases h
    | _ => rfl
  | .cycle _ | .control .stop | .control .undefined => rfl
  | .control .halt | .control .acknowledge => cases h

/-- Whether the rows behind a row with this ending are plain. -/
def Ending.isQuiet : Ending → Bool
  | .decode => false
  | .exit (.branch _ taken _) => taken.all MicroStep.isPlain
  | .exit .retire | .exit .prefixed => true

namespace Position

/-- From here to the end of the instruction nobody looks at the interrupt registers, and what is
still to change the gate stands in the present row. -/
structure Quiet (p : Position) : Prop where
  steps : ∀ s ∈ p.steps, s.isQuiet = true
  ending : p.ending.isQuiet = true

/-- The gate that the rest of the instruction leaves. -/
def due (p : Position) (g : Gate) : Gate := p.steps.foldl (fun g s => s.onGate g) g

/-- A plain row leaves the gate as it is. -/
theorem due_of_plain {steps : List MicroStep} (h : ∀ s ∈ steps, s.isPlain = true) (ending : Ending)
    (g : Gate) : due ⟨steps, ending⟩ g = g := by
  induction steps with
  | nil => rfl
  | cons s rest ih =>
    have first := MicroStep.onGate_of_isPlain (h s List.mem_cons_self) g
    show due ⟨rest, ending⟩ (s.onGate g) = g
    rw [first]
    exact ih fun s' hs => h s' (List.mem_cons_of_mem s hs)

/-- A row that is plain to the end of the instruction is quiet. -/
theorem Quiet.of_plain {steps : List MicroStep} (h : ∀ s ∈ steps, s.isPlain = true) :
    Quiet ⟨steps, .exit .retire⟩ :=
  ⟨fun s hs => MicroStep.isQuiet_of_isPlain (h s hs), rfl⟩

end Position

/-- Behind the prefix everything is plain. -/
theorem PrefixedInstruction.plain (i : PrefixedInstruction) : ∀ s ∈ i.steps, s.isPlain = true := by
  cases i with
  | modify op place | testBit n place => cases place <;> exact List.all_eq_true.1 rfl

/-! ## What quiet steps do -/

/-- What an instruction comes to as far as interrupts and the bus are concerned. -/
structure Upshot (β : Type) where
  /-- The gate that the instruction leaves. -/
  gate : Gate
  halted : Bool
  milestones : List Event
  bus : β

/-- What an instruction comes to that stands at a position, or is over, if the bus is not asked for
more. -/
def Scene.upshot {β : Type} (v : Scene β) (r : Option Position) : Upshot β :=
  { gate := r.elim v.core.gate fun p => p.due v.core.gate
    halted := v.core.halted
    milestones := Sm83.milestones v.out.events
    bus := v.out.bus }

/-- A transfer does to the gate what it is said to do, and does not halt the processor. -/
theorem Transfer.act_gate {t : Transfer} {xs ys : List UInt8} {c c' : Core}
    (h : t.act xs c = some (ys, c')) :
    c'.gate = (MicroStep.transfer t).onGate c.gate ∧ c'.halted = c.halted := by
  match t, xs, h with
  | .loadByte _, xs, rfl | .loadWord _, xs, rfl | .constant _, xs, rfl | .stackSlot, xs, rfl
  | .incSp, xs, rfl | .incHl, xs, rfl | .decHl, xs, rfl | .adjust _, xs, rfl
  | .enableInterruptsLater, xs, rfl | .disableInterrupts, xs, rfl | .enableInterrupts, xs, rfl =>
    exact ⟨rfl, rfl⟩
  | .advancePc, xs, rfl =>
    simp only [Core.advancePc]
    split <;> exact ⟨rfl, rfl⟩
  | .storeByte _, _ :: xs, rfl | .highPage, _ :: xs, rfl | .unary _, _ :: xs, rfl
  | .testBit _, _ :: xs, rfl | .addSpOffset, _ :: xs, rfl | .jumpRelative, _ :: xs, rfl =>
    exact ⟨rfl, rfl⟩
  | .storeWord _, _ :: _ :: xs, rfl | .incWord, _ :: _ :: xs, rfl | .decWord, _ :: _ :: xs, rfl
  | .alu _, _ :: _ :: xs, rfl => exact ⟨rfl, rfl⟩
  | .addWords, _ :: _ :: _ :: _ :: xs, rfl | .splitWord _, _ :: _ :: _ :: _ :: xs, rfl =>
    exact ⟨rfl, rfl⟩

section Acts

variable {β : Type} [Bus β]

/-- Reading data asks the bus, unless the speed switch answers, and passes no milestone. -/
theorem Outside.load_meets (a : UInt16) (o : Outside β) :
    (o.load a).2.bus = Demand.meet (Demand.unlessSwitch o.speed a (.read a)) o.bus
      ∧ milestones (o.load a).2.events = milestones o.events := by
  rw [load, speedAt?, Demand.unlessSwitch]
  cases if a = SpeedSwitch.address then o.speed else none with
  | some speed => exact ⟨rfl, o.milestones_note rfl⟩
  | none => exact ⟨rfl, rfl⟩

/-- And so does writing data. -/
theorem Outside.store_meets (a : UInt16) (value : UInt8) (o : Outside β) :
    (o.store a value).bus = Demand.meet (Demand.unlessSwitch o.speed a (.write a value)) o.bus
      ∧ milestones (o.store a value).events = milestones o.events := by
  rw [store, speedAt?, Demand.unlessSwitch]
  cases if a = SpeedSwitch.address then o.speed else none with
  | some speed =>
    exact ⟨rfl, Outside.milestones_note { o with speed := some (speed.write value) } rfl⟩
  | none => exact ⟨rfl, rfl⟩

/-- A machine cycle makes its demand and passes no milestone. -/
theorem MachineCycle.act_meets {c : MachineCycle} {xs ys : List UInt8} {o o' : Outside β}
    (h : c.act xs o = some (ys, o')) :
    o'.bus = Demand.meet (c.demand? o.speed xs) o.bus
      ∧ milestones o'.events = milestones o.events := by
  match c, xs, h with
  | .read, hi :: lo :: xs, rfl => exact o.load_meets _
  | .write, hi :: lo :: value :: xs, rfl => exact o.store_meets _ value
  | .delay, xs, rfl => exact ⟨rfl, rfl⟩

/-- A quiet step in front of a row. -/
theorem MicroStep.act_quiet {s : MicroStep} {rest : List MicroStep} {ending : Ending}
    {v w : Scene β} (quiet : s.isQuiet = true) (h : s.act v = some w) :
    w.upshot (some ⟨rest, ending⟩) = { v.upshot (some ⟨s :: rest, ending⟩) with
      bus := Demand.meet (Position.demand? ⟨s :: rest, ending⟩ v) v.out.bus } := by
  obtain ⟨xs, c, o⟩ := v
  -- the gate that is due does not change if the step does to the gate what it is said to do
  have due {w : Scene β} (gate : w.core.gate = s.onGate c.gate) :
      Position.due ⟨rest, ending⟩ w.core.gate = Position.due ⟨s :: rest, ending⟩ c.gate :=
    congrArg (Position.due ⟨rest, ending⟩) gate
  match s with
  | .transfer t =>
    obtain ⟨⟨ys, c'⟩, acts, rfl⟩ := Option.map_eq_some_iff.1 h
    obtain ⟨gate, halted⟩ := t.act_gate acts
    exact (Upshot.mk.injEq ..).mpr ⟨due gate, halted, rfl, rfl⟩
  | .cycle s =>
    obtain ⟨⟨ys, o'⟩, acts, rfl⟩ := Option.map_eq_some_iff.1 h
    obtain ⟨bus, same⟩ := MachineCycle.act_meets acts
    exact (Upshot.mk.injEq ..).mpr ⟨due rfl, rfl, same, bus⟩
  | .control .undefined =>
    cases h
    exact (Upshot.mk.injEq ..).mpr ⟨due rfl, rfl, o.milestones_note rfl, rfl⟩
  | .control .stop =>
    simp only [act, Control.act] at h
    split at h
    · cases h
      exact (Upshot.mk.injEq ..).mpr ⟨due rfl, rfl, Outside.milestones_note _ rfl, rfl⟩
    · cases h
      exact (Upshot.mk.injEq ..).mpr ⟨due rfl, rfl, o.milestones_note rfl, rfl⟩
  | .control .halt | .control .acknowledge => cases quiet

/-- A move from a quiet position leads to a quiet position, if the instruction goes on, and changes
what the instruction comes to by one demand on the bus. -/
theorem Position.Quiet.act {p : Position} {v w : Scene β} {r : Option Position} (h : p.Quiet)
    (acts : p.act v = some (r, w)) :
    (∀ q, r = some q → q.Quiet) ∧ w.upshot r
      = { v.upshot (some p) with bus := Demand.meet (p.demand? v) v.out.bus } := by
  cases moved_of_act acts with
  | step first =>
    refine ⟨?_, MicroStep.act_quiet (h.steps _ List.mem_cons_self) first⟩
    rintro q ⟨⟩
    exact ⟨fun s' hs => h.steps s' (List.mem_cons_of_mem _ hs), h.ending⟩
  | retires | dropped _ _ => exact ⟨nofun, rfl⟩
  | taken _ =>
    have plain := List.all_eq_true.1 h.ending
    refine ⟨?_, (Upshot.mk.injEq ..).mpr ⟨due_of_plain plain _ _, rfl, rfl, rfl⟩⟩
    rintro q ⟨⟩
    exact .of_plain plain
  | decodes _ => exact absurd h.ending Bool.false_ne_true
  | @selects opcode _ _ =>
    have plain := (PrefixedInstruction.ofOpcode opcode).plain
    refine ⟨?_, (Upshot.mk.injEq ..).mpr
      ⟨due_of_plain plain _ _, rfl, v.out.milestones_note rfl, rfl⟩⟩
    rintro q ⟨⟩
    exact .of_plain plain

end Acts

/-! ## Where it is quiet -/

open Position

/-- Instructions other than `HALT` are quiet from their first step on. -/
theorem quiet_instruction {i : Instruction} (h : i ≠ .halt) : i.microprogram.position.Quiet := by
  cases i with
  | halt => exact absurd rfl h
  | load dst src => cases dst <;> cases src <;> exact ⟨List.all_eq_true.1 rfl, rfl⟩
  | loadImmediate place | modify op place => cases place <;> exact ⟨List.all_eq_true.1 rfl, rfl⟩
  | storeA pointer | loadA pointer => cases pointer <;> exact ⟨List.all_eq_true.1 rfl, rfl⟩
  | accumulate op src =>
    rcases src with (r | _) | _ <;> cases op <;> exact ⟨List.all_eq_true.1 rfl, rfl⟩
  | _ => exact ⟨List.all_eq_true.1 rfl, rfl⟩

/-- And so is serving an interrupt, after the acknowledge. -/
theorem quiet_interrupt : Quiet ⟨interruptMicroprogram.steps.tail, .exit .retire⟩ :=
  .of_plain (List.all_eq_true.1 rfl)

/-- What is left of a quiet row is quiet. -/
theorem Position.Quiet.suffix {row steps : List MicroStep} {ending : Ending}
    (h : Quiet ⟨row, ending⟩) (hs : steps <:+ row) : Quiet ⟨steps, ending⟩ :=
  ⟨fun s member => h.steps s (hs.subset member), h.ending⟩

/-- Wherever an instruction or an interrupt waits, it is quiet. -/
theorem Position.OnMicrocode.quiet {s : Suspension} (h : s.position.OnMicrocode) :
    s.position.Quiet := by
  refine h.of_rows (C := fun steps ending => Quiet ⟨steps, ending⟩) ?_ ?_ ?_ ?_ ?_
  · exact fun row steps ending quiet hs => quiet.suffix hs
  · exact fun i live _ => quiet_instruction live
  · intro i condition steps leftover branches
    have live : i ≠ .halt := by
      rintro rfl
      cases branches
    have quiet := (quiet_instruction live).ending
    simp only [Microprogram.position, branches, Ending.isQuiet] at quiet
    exact .of_plain (List.all_eq_true.1 quiet)
  · exact fun i => .of_plain i.plain
  · exact quiet_interrupt

end Sm83
