import Sm83.Proofs.Microstep.Position

/-!
# Inside a call

One call of the processor is a choice of where to begin and a way from there through one machine
cycle.  `Machine.enter` is the choice: in front of the cycle of a suspended instruction, or at an
instruction boundary in front of an opcode fetch or of an interrupt, or nowhere where the processor is
halted.  `Machine.call` goes the way with a loop that counts its moves.

* `cycle_eq_call` — a machine cycle is such a call, whatever the number of moves that the loop allows,
  from `longestWay` on.  So the loop comes to its end by itself.
* `Moment` — the positions that a call passes, each with its machine.
* `cycle_leads` — what holds where a call begins, and is kept by single moves, holds where it ends.
-/

namespace Sm83

namespace Machine

variable {β : Type} [Bus β]

/-- What comes next at an instruction boundary. -/
def choose : MachineM β (Option Position) := do
  modifyCpu commitIme
  let pending ← pollInterrupts
  let cpu ← getCpu
  if cpu.halted then
    idle pending
    return none
  else if cpu.ime && !pending.isEmpty then return some interruptMicroprogram.position
  else
    modifyCpu fun cpu => { cpu with opcodeAddress := cpu.regs.pc }
    return some fetchPosition

/-- Where a call begins. -/
def enter : MachineM β (Option Position) := do
  match ← beginCycle with
  | some s => return some s.position
  | none => choose

/-- A machine cycle, with loops that make at most `fuel` moves. -/
def call (fuel : Nat) : MachineM β Unit := do
  let next ← match ← enter with
    | some p => p.through fuel
    | none => pure none
  modifyCpu ({ · with suspended := next.bind Position.suspension? })

/-- Where a new instruction or an interrupt begins, the stretches lead where the moves lead. -/
theorem nextInstruction_eq_choose {fuel : Nat} (h : longestWay ≤ fuel) :
    Option.map Suspension.position <$> nextInstruction (β := β)
      = choose >>= fun
        | some p => p.through fuel
        | none => pure none := by
  simp only [nextInstruction, choose, map_bind, bind_assoc]
  refine bind_congr fun _ => bind_congr fun pending => bind_congr fun cpu => ?_
  split
  · simp only [map_bind, bind_assoc, map_pure, pure_bind]
    rfl
  · split
    · rw [pure_bind]
      exact (Position.through_eq_start h).symm
    · simp only [bind_assoc, pure_bind]
      exact (Position.through_eq_fetch h).symm

/-- A machine in whose count the cycle has begun. -/
def begun (m : Machine β) : Machine β :=
  { m with cpu := { m.cpu with suspended := none, cycles := m.cpu.cycles + 1 } }

omit [Bus β] in
theorem beginCycle_bind {α : Type} (f : Option Suspension → MachineM β α) (m : Machine β) :
    (beginCycle >>= f) m = f m.cpu.suspended m.begun := rfl

/-- A machine cycle is a call whose loops are allowed the moves that can be needed. -/
theorem cycle_eq_call {fuel : Nat} (enough : longestWay ≤ fuel) (m : Machine β)
    (h : ∀ s, m.cpu.suspended = some s → s.position.moves ≤ fuel) : cycle m = call fuel m := by
  -- the call stores a position where the cycle stores the suspended instruction that stands there
  have store (x : MachineM β (Option Suspension)) :
      (Option.map Suspension.position <$> x >>= fun next =>
          modifyCpu ({ · with suspended := next.bind Position.suspension? }))
        = x >>= fun next => modifyCpu ({ · with suspended := next }) := by
    rw [bind_map_left]
    exact bind_congr fun next => by cases next <;> rfl
  rw [cycle, call, enter, bind_assoc, beginCycle_bind, beginCycle_bind]
  cases hs : m.cpu.suspended with
  | some s =>
    simp only [pure_bind]
    rw [Position.through_eq_resume s (h s hs), store]
  | none =>
    rw [← store, nextInstruction_eq_choose enough, bind_assoc]
    exact congrFun (bind_congr (x := choose) fun r => by cases r <;> rfl) m.begun

end Machine

/-! ## The choice at a boundary -/

open Machine

/-- The delayed enabling of interrupts, bit by bit. -/
theorem Machine.commitIme_eq (cpu : Cpu) :
    commitIme cpu = { cpu with
      ime := cpu.ime || cpu.imeDelay
      imePending := cpu.imePending && cpu.imeDelay
      imeDelay := cpu.imePending && !cpu.imeDelay } := by
  obtain ⟨regs, ime, pending, delay, halted, haltBug, model, speed, scratch, suspended, address,
    cycles⟩ := cpu
  cases ime <;> cases pending <;> cases delay <;> rfl

/-- The processor that makes the choice: the cycle is counted, and enabling interrupts has moved on. -/
def Cpu.choosing (cpu : Cpu) : Cpu :=
  commitIme { cpu with suspended := none, cycles := cpu.cycles + 1 }

namespace Cpu

variable (cpu : Cpu)

theorem choosing_ime : cpu.choosing.ime = (commitIme cpu).ime := by
  rw [choosing, commitIme_eq, commitIme_eq]

theorem choosing_halted : cpu.choosing.halted = cpu.halted := by rw [choosing, commitIme_eq]

theorem choosing_regs : cpu.choosing.regs = cpu.regs := by rw [choosing, commitIme_eq]

theorem choosing_speed : cpu.choosing.speed = cpu.speed := by rw [choosing, commitIme_eq]

theorem choosing_scratch : cpu.choosing.scratch = cpu.scratch := by rw [choosing, commitIme_eq]

theorem choosing_suspended : cpu.choosing.suspended = none := by rw [choosing, commitIme_eq]

end Cpu

/-- Whether a processor at a boundary starts to serve an interrupt. -/
def Cpu.serves {β : Type} [Bus β] (cpu : Cpu) (bus : β) : Bool :=
  !cpu.halted && (commitIme cpu).ime && !(Bus.poll bus).1.isEmpty

namespace Machine

variable {β : Type} [Bus β] {m : Machine β}

theorem enter_of_suspended {s : Suspension} (h : m.cpu.suspended = some s) :
    enter m = .ok (some s.position) m.begun := by
  rw [enter, beginCycle_bind, h]
  rfl

/-- At a boundary both interrupt registers are read, whatever comes of it. -/
theorem enter_of_boundary (h : m.cpu.suspended = none) :
    enter m = (if m.cpu.choosing.halted then do
        idle (Bus.poll m.bus).1
        return none
      else if m.cpu.choosing.ime && !(Bus.poll m.bus).1.isEmpty then
        return some interruptMicroprogram.position
      else do
        modifyCpu fun cpu => { cpu with opcodeAddress := cpu.regs.pc }
        return some fetchPosition) ⟨m.cpu.choosing, (Bus.poll m.bus).2, m.events⟩ := by
  rw [enter, beginCycle_bind, h]
  rfl

/-- What a halted processor takes note of that finds this pending. -/
def wakeNotes (cpu : Cpu) (pending : InterruptSet) : List Event :=
  if pending.isEmpty then [] else [.leftHalt pending cpu.ime cpu.regs.pc]

/-- A processor that is halted goes nowhere; at most it ends the halt. -/
theorem enter_of_halted (h : m.cpu.suspended = none) (halted : m.cpu.halted = true) :
    enter m = .ok none ⟨{ m.cpu.choosing with halted := (Bus.poll m.bus).1.isEmpty },
      (Bus.poll m.bus).2, m.events ++ wakeNotes m.cpu.choosing (Bus.poll m.bus).1⟩ := by
  have still : m.cpu.choosing.halted = true := (m.cpu.choosing_halted).trans halted
  rw [enter_of_boundary h, if_pos still, idle, wakeNotes]
  cases nothing : (Bus.poll m.bus).1.isEmpty with
  | true =>
    rw [if_pos rfl, if_pos rfl, List.append_nil, ← still]
    rfl
  | false =>
    rw [if_neg Bool.false_ne_true, if_neg Bool.false_ne_true]
    rfl

theorem enter_of_serves (h : m.cpu.suspended = none) (serves : m.cpu.serves m.bus = true) :
    enter m
      = .ok (some interruptMicroprogram.position) ⟨m.cpu.choosing, (Bus.poll m.bus).2, m.events⟩ := by
  rw [Cpu.serves, Bool.and_assoc, Bool.and_eq_true, Bool.not_eq_true', ← Cpu.choosing_ime,
    ← Cpu.choosing_halted] at serves
  rw [enter_of_boundary h, serves.1, if_neg Bool.false_ne_true, if_pos serves.2]
  rfl

/-- A processor that is awake and serves no interrupt fetches: both tests of the choice fail. -/
theorem choosing_of_fetches (awake : m.cpu.halted = false) (idle : m.cpu.serves m.bus = false) :
    m.cpu.choosing.halted = false
      ∧ (m.cpu.choosing.ime && !(Bus.poll m.bus).1.isEmpty) = false := by
  rw [Cpu.serves, awake, Bool.not_false, Bool.true_and, ← Cpu.choosing_ime] at idle
  rw [← Cpu.choosing_halted] at awake
  exact ⟨awake, idle⟩

theorem enter_of_fetches (h : m.cpu.suspended = none) (awake : m.cpu.halted = false)
    (idle : m.cpu.serves m.bus = false) :
    enter m = .ok (some fetchPosition)
      ⟨{ m.cpu.choosing with opcodeAddress := m.cpu.regs.pc }, (Bus.poll m.bus).2, m.events⟩ := by
  obtain ⟨awake, idle⟩ := choosing_of_fetches awake idle
  rw [enter_of_boundary h, awake, if_neg Bool.false_ne_true, idle, if_neg Bool.false_ne_true,
    ← Cpu.choosing_regs]
  rfl

theorem nextInstruction_of_fetches (awake : m.cpu.halted = false)
    (idle : m.cpu.serves m.bus = false) :
    nextInstruction m.begun = fetch ⟨m.cpu.choosing, (Bus.poll m.bus).2, m.events⟩ := by
  obtain ⟨awake, idle⟩ := choosing_of_fetches awake idle
  change (if m.cpu.choosing.halted then _
    else if m.cpu.choosing.ime && !(Bus.poll m.bus).1.isEmpty then _
    else fetch) (Machine.mk m.cpu.choosing (Bus.poll m.bus).2 m.events) = _
  rw [awake, if_neg Bool.false_ne_true, idle, if_neg Bool.false_ne_true]

end Machine

/-! ## What calls keep -/

section Keeps

open Machine

variable {β : Type} [Bus β] {P : Nat → Position → Machine β → Prop} {Q : Machine β → Prop}
  {E : Fault → Machine β → Prop}

/-- What a call leaves: the position it stored satisfies `P`, or the instruction is over and `Q`
holds, both of the machine before the position was stored. -/
def Left (P : Position → Machine β → Prop) (Q : Machine β → Prop) (m : Machine β) : Prop :=
  ∃ next m', m = { m' with cpu := { m'.cpu with suspended := next } }
    ∧ Next P Q (next.map Suspension.position) m'

omit [Bus β] in
theorem Left.imp {P' : Position → Machine β → Prop} {P : Position → Machine β → Prop}
    {m : Machine β} (h : Left P Q m) (weaker : ∀ p m, P p m → P' p m) : Left P' Q m := by
  obtain ⟨next, m', e, h⟩ := h
  refine ⟨next, m', e, ?_⟩
  match next, h with
  | some s, h => exact weaker _ _ h
  | none, h => exact h

omit [Bus β] in
theorem Leads.of_map {α γ : Type} {P : γ → Machine β → Prop} {f : α → γ} {x : MachineM β α}
    {m : Machine β} (h : Leads P E ((f <$> x) m)) : Leads (fun a => P (f a)) E (x m) := by
  change Leads P E (EStateM.map f x m) at h
  rw [EStateM.map] at h
  cases e : x m with
  | ok a m' =>
    rw [e] at h
    exact h
  | error fault m' =>
    rw [e] at h
    exact h

/-- What holds where a call begins and is kept by moves, holds where the call ends.  Of a machine
cycle the moves before it count one to come, and those after it none. -/
theorem cycle_leads
    (move : ∀ k p m, P k p m → p.waiting = false → Leads (Next (P k) Q) E (p.advance m))
    (tick : ∀ p m, P 1 p m → p.waiting = true → Leads (Next (P 0) Q) E (p.advance m))
    (micro : ∀ p m, P 1 p m → p.OnMicrocode)
    {m : Machine β} (h : Leads (Next (P 1) Q) E (enter m)) :
    Leads (fun _ => Left (fun p m => P 0 p m ∧ p.waiting = true) Q) E (cycle m) := by
  have through (p : Position) (m : Machine β) (h : P 1 p m) :=
    Position.through_leads move tick (micro p m h).moves_le h
  have stores {x : MachineM β (Option Suspension)}
      (h : Leads (fun next => Next (fun p m => P 0 p m ∧ p.waiting = true) Q
        (next.map Suspension.position)) E (x m.begun)) :
      Leads (fun _ => Left (fun p m => P 0 p m ∧ p.waiting = true) Q) E
        ((x >>= fun next => modifyCpu ({ · with suspended := next })) m.begun) :=
    h.bind fun next m' h => ⟨next, m', rfl, h⟩
  rw [enter, beginCycle_bind] at h
  rw [cycle, beginCycle_bind]
  cases hs : m.cpu.suspended with
  | some s =>
    rw [hs] at h
    refine stores ?_
    have led := through s.position m.begun h
    rw [Position.through_eq_resume s (micro _ _ h).moves_le] at led
    exact led.of_map
  | none =>
    rw [hs] at h
    refine stores (Leads.of_map ?_)
    rw [nextInstruction_eq_choose (Nat.le_refl longestWay)]
    refine Leads.bind h fun r m' h => ?_
    match r with
    | some p => exact through p m' h
    | none => exact h

/-- What moves in no time keep is kept to the next machine cycle. -/
theorem settle_leads {P : Position → Machine β → Prop} {steps : List MicroStep} {exit : Exit}
    {m : Machine β}
    (move : ∀ p m, P p m → p.waiting = false → Leads (Next P Q) E (p.advance m))
    (h : P ⟨steps, .exit exit⟩ m) :
    Leads (fun next => Next (fun p m => P p m ∧ p.waiting = true) Q (next.map Suspension.position)) E
      (settle steps exit m) := by
  have led := Position.loop_leads move (Nat.le_refl _) h
  rw [Position.loop_eq_settle (Nat.le_refl _)] at led
  exact led.of_map

/-- What holds however a call ended, holds of its outcome. -/
theorem Cpu.step_of_left {cpu : Cpu} {bus : β} {P : Position → Machine β → Prop}
    {Φ : Outcome β → Prop} (h : Leads (fun _ => Left P Q) E (cycle ⟨cpu, bus, []⟩))
    (going : ∀ s m, P s.position m →
      Φ ⟨{ m.cpu with suspended := some s }, m.bus, m.events, none⟩)
    (finished : ∀ m, Q m → Φ ⟨{ m.cpu with suspended := none }, m.bus, m.events, none⟩)
    (failed : ∀ fault m, E fault m → Φ ⟨m.cpu, m.bus, m.events, some fault⟩) :
    Φ (cpu.step bus) := by
  rw [Cpu.step]
  cases e : cycle ⟨cpu, bus, []⟩ with
  | error fault m =>
    rw [e] at h
    exact failed fault m h
  | ok _ m =>
    rw [e] at h
    obtain ⟨next, m', rfl, h⟩ := h
    match next, h with
    | none, h => exact finished m' h
    | some s, h => exact going s m' h

end Keeps

/-! ## Going on -/

section Going

variable {β : Type} [Bus β] {cpu : Cpu} {o : Outcome β}

theorem Cpu.atBoundary_eq_true_iff : cpu.atBoundary = true ↔ cpu.suspended = none :=
  Option.isNone_iff_eq_none

theorem Cpu.atBoundary_eq_false_iff : cpu.atBoundary = false ↔ ∃ s, cpu.suspended = some s := by
  rw [atBoundary, Option.isNone_eq_false_iff, Option.isSome_iff_exists]

/-- Going on without a fault is one call more. -/
theorem Outcome.next_of_faultless (h : o.fault = none) :
    o.next = { o.cpu.step o.bus with events := o.events ++ (o.cpu.step o.bus).events } := by
  obtain ⟨cpu, bus, events, fault⟩ := o
  cases h
  rfl

/-- At a boundary there is nothing to go on for. -/
theorem Outcome.toBoundary_of_boundary (boundary : o.cpu.atBoundary = true) (limit : Nat) :
    o.toBoundary limit = o := by
  cases limit with
  | zero => rfl
  | succ limit => rw [toBoundary, boundary, Bool.or_true, if_pos rfl]

/-- Inside an instruction there is a call to make. -/
theorem Outcome.toBoundary_of_inside (faultless : o.fault = none) (inside : o.cpu.atBoundary = false)
    (limit : Nat) : o.toBoundary (limit + 1) = o.next.toBoundary limit := by
  rw [toBoundary, faultless, inside]
  rfl

/-- On the way to a boundary one can stop and go on. -/
theorem Outcome.toBoundary_add (o : Outcome β) (k l : Nat) :
    o.toBoundary (k + l) = (o.toBoundary k).toBoundary l := by
  induction k generalizing o with
  | zero =>
    rw [Nat.zero_add]
    rfl
  | succ k ih =>
    rw [Nat.succ_add, toBoundary, toBoundary]
    split
    next stopped =>
      cases l with
      | zero => rfl
      | succ l => rw [toBoundary, if_pos stopped]
    next => exact ih o.next

end Going

/-! ## The fetch -/

section Fetch

open Machine

variable {β : Type} [Bus β]

/-- The core after an opcode was fetched. -/
def Core.fetched (c : Core) : Core := Core.advancePc { c with opcodeAddress := c.regs.pc }

/-- The outside after an opcode was fetched from an address. -/
def Outside.fetched (a : UInt16) (o : Outside β) : Outside β :=
  (o.load a).2.note (.decoded .base (o.load a).1 a)

theorem carryOut_operandByte (xs : List UInt8) (c : Core) (o : Outside β)
    (room : xs.length + 2 ≤ scratchCapacity) :
    Performs (carryOut Microcode.operandByte) ⟨xs, c, o⟩ ()
      ⟨(o.load c.regs.pc).1 :: xs, c.advancePc, (o.load c.regs.pc).2⟩ := by
  have load : MicroStep.act (.cycle .read) ⟨onTop c.regs.pc xs, c.advancePc, o⟩
      = some ⟨(o.load c.regs.pc).1 :: xs, c.advancePc, (o.load c.regs.pc).2⟩ := by
    simp only [onTop, MicroStep.act, MachineCycle.act, Word.ofBytes_high_low, Option.map_some]
  have address : Performs (MicroStep.transfer (.loadWord .pc)).run ⟨xs, c, o⟩ ()
      ⟨onTop c.regs.pc xs, c, o⟩ := .microStep rfl room
  have advance : Performs (MicroStep.transfer .advancePc).run ⟨onTop c.regs.pc xs, c, o⟩ ()
      ⟨onTop c.regs.pc xs, c.advancePc, o⟩ := .microStep rfl room
  exact address.bind <| advance.bind <|
    (Performs.microStep load (Nat.le_of_succ_le room)).bind <| Performs.pure () _

theorem fetchOpcode_performs (c : Core) (o : Outside β) :
    Performs fetchOpcode ⟨[], c, o⟩ (o.load c.regs.pc).1 ⟨[], c.fetched, o.fetched c.regs.pc⟩ := by
  have address (xs : List UInt8) (c : Core) (o : Outside β) :
      Performs (modifyCpu fun cpu => { cpu with opcodeAddress := cpu.regs.pc }) ⟨xs, c, o⟩ ()
        ⟨xs, { c with opcodeAddress := c.regs.pc }, o⟩ := by
    rintro before m ⟨⟩
    exact ⟨_, rfl, rfl, rfl⟩
  refine (address [] c o).bind <| (carryOut_operandByte [] _ o (by decide)).bind <|
    (Performs.popByte _ _ _).bind <| Performs.getCpu_bind_core fun cpu hc _ => ?_
  have start : cpu.opcodeAddress = c.regs.pc :=
    (congrArg Core.opcodeAddress hc).trans (Core.advancePc_opcodeAddress _)
  rw [start]
  exact (Performs.emit _ _ _ _).bind (Performs.pure _ _)

/-- The byte that a call fetches at a boundary: after its polls, from where the program counter
points. -/
def opcodeFetched (cpu : Cpu) (bus : β) : UInt8 :=
  ((Outside.mk cpu.speed (Bus.poll bus).2 []).load cpu.regs.pc).1

/-- What is shown when the instruction starts. -/
def sceneFetched (cpu : Cpu) (bus : β) : Scene β :=
  ⟨[], cpu.choosing.core.fetched, (Outside.mk cpu.speed (Bus.poll bus).2 []).fetched cpu.regs.pc⟩

/-- Enabling interrupts has moved on, and the program counter is behind the opcode.  The HALT bug takes
its move back and is disarmed: the byte after the opcode will be the opcode again. -/
theorem sceneFetched_core (cpu : Cpu) (bus : β) :
    (sceneFetched cpu bus).core = { (commitIme cpu).core with
      regs := { cpu.regs with pc := if cpu.haltBug then cpu.regs.pc else cpu.regs.pc + 1 }
      haltBug := false
      opcodeAddress := cpu.regs.pc } := by
  rw [sceneFetched, Core.fetched, Core.advancePc, Cpu.choosing, commitIme_eq, commitIme_eq]
  simp only [Cpu.core]
  cases cpu.haltBug <;> rfl

theorem sceneFetched_f (cpu : Cpu) (bus : β) :
    (sceneFetched cpu bus).core.regs.f = cpu.regs.f := by rw [sceneFetched_core]

theorem sceneFetched_speed (cpu : Cpu) (bus : β) :
    (sceneFetched cpu bus).out.speed = cpu.speed := Outside.load_speed _ _

theorem sceneFetched_pc (cpu : Cpu) (bus : β) :
    (sceneFetched cpu bus).core.regs.pc
      = if cpu.haltBug then cpu.regs.pc else cpu.regs.pc + 1 := by rw [sceneFetched_core]

/-- At a boundary where nothing else is to be done, a call fetches an opcode and starts the
instruction. -/
theorem fetch_leads {cpu : Cpu} {bus : β} {P : Position → Machine β → Prop}
    {Q : Machine β → Prop} {E : Fault → Machine β → Prop}
    (boundary : cpu.suspended = none) (empty : cpu.scratch.toList = []) (awake : cpu.halted = false)
    (idle : cpu.serves bus = false)
    (starts : ∀ m : Machine β, m.scene [] = sceneFetched cpu bus → m.cpu.frame = cpu.choosing.frame →
      Leads (fun next : Option Suspension => Next P Q (next.map Suspension.position)) E
        (settle (Instruction.ofOpcode (opcodeFetched cpu bus)).microprogram.steps
          (Instruction.ofOpcode (opcodeFetched cpu bus)).microprogram.exit m)) :
    Leads (fun _ => Left P Q) E (Machine.cycle ⟨cpu, bus, []⟩) := by
  let m : Machine β := ⟨cpu.choosing, (Bus.poll bus).2, []⟩
  have shown : m.scene [] = ⟨[], cpu.choosing.core, cpu.speed, (Bus.poll bus).2, []⟩ := by
    rw [Machine.scene, Cpu.choosing_scratch, empty, Cpu.choosing_speed]
    rfl
  have pc : cpu.choosing.core.regs.pc = cpu.regs.pc := by rw [Cpu.core, Cpu.choosing_regs]
  obtain ⟨m', e, shown', kept⟩ := fetchOpcode_performs _ _ [] m shown
  rw [pc] at e shown'
  rw [cycle, beginCycle_bind, boundary]
  refine Leads.bind (P := fun next : Option Suspension => Next P Q (next.map Suspension.position))
    ?_ fun next m' h => ⟨next, m', rfl, h⟩
  rw [nextInstruction_of_fetches awake idle, fetch]
  change Leads _ E (EStateM.bind fetchOpcode _ m)
  rw [EStateM.bind, e]
  exact starts m' shown' kept

end Fetch

/-! ## Moments -/

/-- The positions that a call passes, with the machine cycles that it still has to make. -/
inductive Moment {β : Type} [Bus β] (m₀ : Machine β) : Nat → Position → Machine β → Prop
  /-- The call begins. -/
  | entered {p : Position} {m : Machine β} (begins : Machine.enter m₀ = .ok (some p) m) :
    Moment m₀ 1 p m
  /-- A move in no time. -/
  | moved {k : Nat} {p q : Position} {m m' : Machine β} (h : Moment m₀ k p m)
    (instant : p.waiting = false) (move : p.advance m = .ok (some q) m') : Moment m₀ k q m'
  /-- The machine cycle. -/
  | ticked {p q : Position} {m m' : Machine β} (h : Moment m₀ 1 p m) (waits : p.waiting = true)
    (move : p.advance m = .ok (some q) m') : Moment m₀ 0 q m'

end Sm83
