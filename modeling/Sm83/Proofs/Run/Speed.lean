import Sm83.Proofs.Interrupts.History
import Sm83.Proofs.Run.Spared

/-!
# What the speed switch tells of the past

The register of the speed switch can be written by every instruction that stores anything, and by an
interrupt that saves the program counter; it can be read by all that reads, an opcode fetch included.
Yet its two bits are a function of what the program has done.

* `Deed`, `Timeline` — runs from a reset on, with the data that was written and the `STOP`s that were
  executed.
* `switchAfter` — the two bits, read off these: whether the number of `STOP`s that found the switch
  prepared is odd, and bit 0 of the last byte that was sent to the register after them.
* `Tells.step` — the step: the deeds of a call do to `switchAfter` what the call does to the
  speed switch.
* `Opening` — what a call can be at before its machine cycle.  All accesses of data are made from
  there, with the speed switch as the call found it.
* `Timeline.tellsSpeed` — so every read of the register gives what the past says, and the register has
  no other use.
-/

namespace Sm83

open Machine

/-! ## Deeds -/

/-- What a program does that may concern the speed switch. -/
inductive Deed
  /-- A `STOP` is executed, and finds the switch prepared or not. -/
  | stop (prepared : Bool)
  /-- Data is written. -/
  | write (a : UInt16) (value : UInt8)
  deriving DecidableEq, Repr

namespace Deed

/-- Whether it changes the speed. -/
def switches : Deed → Bool
  | .stop prepared => prepared
  | .write _ _ => false

/-- The byte that it sends to the register of the speed switch. -/
def sent? : Deed → Option UInt8
  | .stop _ => none
  | .write a value => if a = SpeedSwitch.address then some value else none

end Deed

/-- The last byte that was sent to the register since the speed was changed. -/
def lastSent? (past : List Deed) : Option UInt8 :=
  (past.reverse.takeWhile fun d => !d.switches).findSome? Deed.sent?

/-- The speed switch after a past. -/
def switchAfter (past : List Deed) : SpeedSwitch :=
  { doubleSpeed := past.countP Deed.switches % 2 == 1
    prepared := (lastSent? past).any (·.toNat.testBit 0) }

/-- The past has it right which `STOP`s found the switch prepared. -/
def Flagged (past : List Deed) : Prop :=
  ∀ before prepared after, past = before ++ .stop prepared :: after →
    prepared = (switchAfter before).prepared

/-- A `STOP` works the switch. -/
theorem switchAfter_stop (past : List Deed) :
    switchAfter (past ++ [.stop (switchAfter past).prepared]) = (switchAfter past).switch.2 := by
  cases prepared : (switchAfter past).prepared with
  | true =>
    have parity (n : Nat) : ((n + 1) % 2 == 1) = !(n % 2 == 1) := by
      rcases Nat.mod_two_eq_zero_or_one n with even | odd
      · rw [Nat.add_mod, even]
        rfl
      · rw [Nat.add_mod, odd]
        rfl
    rw [SpeedSwitch.switch, prepared, if_pos rfl, switchAfter, lastSent?, List.reverse_concat,
      List.countP_append]
    exact (SpeedSwitch.mk.injEq ..).mpr ⟨parity _, rfl⟩
  | false =>
    rw [SpeedSwitch.switch, prepared, if_neg Bool.false_ne_true, switchAfter, lastSent?,
      List.reverse_concat, List.countP_append]
    rfl

/-- A write prepares it or not, if it is sent to the register. -/
theorem switchAfter_write (past : List Deed) (a : UInt16) (value : UInt8) :
    switchAfter (past ++ [.write a value])
      = if a = SpeedSwitch.address then (switchAfter past).write value else switchAfter past := by
  rw [switchAfter, lastSent?, List.reverse_concat, List.countP_append]
  by_cases sent : a = SpeedSwitch.address
  · rw [if_pos sent]
    refine (SpeedSwitch.mk.injEq ..).mpr ⟨rfl, ?_⟩
    simp only [List.takeWhile_cons, Deed.switches, Bool.not_false, if_true, List.findSome?_cons,
      Deed.sent?, sent]
    rfl
  · rw [if_neg sent]
    refine (SpeedSwitch.mk.injEq ..).mpr ⟨rfl, ?_⟩
    simp only [List.takeWhile_cons, Deed.switches, Bool.not_false, if_true, List.findSome?_cons,
      Deed.sent?, sent, if_false]
    rfl

/-- One deed more that has it right. -/
theorem Flagged.concat {past : List Deed} {d : Deed} (h : Flagged past)
    (right : ∀ prepared, d = .stop prepared → prepared = (switchAfter past).prepared) :
    Flagged (past ++ [d]) := by
  intro before prepared after split
  rcases List.eq_nil_or_concat after with rfl | ⟨after, latest, rfl⟩
  · obtain ⟨rfl, same⟩ := List.append_inj' split rfl
    exact right prepared (List.singleton_inj.1 same)
  · rw [List.concat_eq_append, ← List.cons_append, ← List.append_assoc] at split
    obtain ⟨rfl, -⟩ := List.append_inj' split rfl
    exact h before prepared after rfl

/-! ## The deeds of a call -/

section Call

variable {β : Type} [Bus β] {cpu : Cpu} {bus : β}

/-- What a call does that may concern the speed switch: the data it writes, and the `STOP` it
executes. -/
def deeds (cpu : Cpu) (bus : β) : List Deed :=
  (match cpu.access? with
    | some (.write a value) => [.write a value]
    | _ => [])
    ++ if (cpu.step bus).events.any (Event.begins 0x10) then [.stop (cpu.speed.any (·.prepared))]
      else []

/-- One opcode is that of the `STOP`. -/
theorem ofOpcode_eq_stop_iff (opcode : UInt8) :
    Instruction.ofOpcode opcode = .stop ↔ opcode = 0x10 := by
  have table : ∀ b : UInt8, Instruction.ofOpcode b = .stop ↔ b = 0x10 :=
    forall_byte (by decide +kernel)
  exact table opcode

/-- Inside an instruction there may be a write, and no `STOP`. -/
theorem Cpu.Sound.deeds_inside (h : cpu.Sound) {s : Suspension} (under : cpu.suspended = some s)
    (bus : β) :
    deeds cpu bus = match cpu.access? with
      | some (.write a value) => [.write a value]
      | _ => [] := by
  have nothing : ¬ (cpu.step bus).events.any (Event.begins 0x10) = true := fun begins =>
    Option.some_ne_none s (under.symm.trans ((h.begins_iff bus 0x10).1 begins).1)
  rw [deeds, if_neg nothing]
  exact List.append_nil _

/-- At a boundary there may be a `STOP`, and no write. -/
theorem Cpu.Sound.deeds_at_boundary (h : cpu.Sound) (boundary : cpu.suspended = none) (bus : β) :
    deeds cpu bus = if cpu.halted = false ∧ cpu.serves bus = false ∧ opcodeFetched cpu bus = 0x10
      then [.stop (cpu.speed.any (·.prepared))] else [] := by
  rw [deeds, Cpu.access?_of_boundary boundary]
  refine if_congr ((h.begins_iff bus 0x10).trans (and_iff_right boundary)) rfl rfl

/-- What a past has to do with a processor: it tells the speed switch, where there is one, and has it
right what the `STOP`s found. -/
structure Tells (past : List Deed) (cpu : Cpu) : Prop where
  speed : cpu.speed = cpu.model.speedSwitch.map fun _ => switchAfter past
  flagged : cpu.model = .cgb → Flagged past

/-- A past without news tells the same of a processor that keeps its speed switch. -/
theorem Tells.of_idle {past : List Deed} {cpu' : Cpu} (h : Tells past cpu)
    (model : cpu'.model = cpu.model) (speed : cpu'.speed = cpu.speed) : Tells (past ++ []) cpu' := by
  rw [List.append_nil]
  exact ⟨by rw [speed, model]; exact h.speed, fun colour => h.flagged (model.symm.trans colour)⟩

/-- A write tells what it sends to the register. -/
theorem Tells.write {past : List Deed} {cpu' : Cpu} (h : Tells past cpu) {a : UInt16} {value : UInt8}
    (model : cpu'.model = cpu.model)
    (speed : cpu'.speed = Demand.onSpeed cpu.speed (some (.write a value))) :
    Tells (past ++ [.write a value]) cpu' := by
  refine ⟨?_, fun colour => (h.flagged (model.symm.trans colour)).concat fun _ => Deed.noConfusion⟩
  rw [speed, model, h.speed, Demand.onSpeed, switchAfter_write]
  cases cpu.model <;> split <;> rfl

/-- A `STOP` tells what it finds. -/
theorem Tells.stop {past : List Deed} {cpu' : Cpu} (h : Tells past cpu)
    (model : cpu'.model = cpu.model)
    (speed : cpu'.speed = cpu.speed.map fun speed => speed.switch.2) :
    Tells (past ++ [.stop (cpu.speed.any (·.prepared))]) cpu' := by
  have told := h.speed
  cases which : cpu.model with
  | dmg =>
    rw [which] at told
    refine ⟨?_, fun colour => ?_⟩
    · rw [speed, model, which, told]
      rfl
    · cases (model.symm.trans colour).symm.trans which
  | cgb =>
    have told : cpu.speed = some (switchAfter past) := by
      rw [which] at told
      exact told
    refine ⟨?_, fun _ => (h.flagged which).concat ?_⟩
    · rw [speed, model, which, told]
      exact congrArg some (switchAfter_stop past).symm
    · rintro prepared ⟨⟩
      rw [told]
      rfl

/-- The deeds of a call tell what it does to the speed switch. -/
theorem Tells.step {past : List Deed} (h : Tells past cpu) (sound : cpu.Sound) (bus : β) :
    Tells (past ++ deeds cpu bus) (cpu.step bus).cpu := by
  have model := (sound.step_frame bus).1
  have idle_at (boundary : cpu.suspended = none)
      (nothing : ¬ (cpu.halted = false ∧ cpu.serves bus = false ∧ opcodeFetched cpu bus = 0x10))
      (speed : (cpu.step bus).cpu.speed = cpu.speed) :
      Tells (past ++ deeds cpu bus) (cpu.step bus).cpu := by
    rw [sound.deeds_at_boundary boundary, if_neg nothing]
    exact h.of_idle model speed
  rcases cpu.callKind bus with ⟨s, under⟩ | ⟨boundary, halted⟩ | ⟨boundary, serves, line, present⟩
    | ⟨boundary, serves, gone⟩ | ⟨boundary, awake, idle⟩
  · have speed := (sound.spares_inside under bus).2
    rw [sound.deeds_inside under]
    match access : cpu.access? with
    | none | some (.read _) =>
      rw [access] at speed
      exact h.of_idle model speed
    | some (.write a value) =>
      rw [access] at speed
      exact h.write model speed
  · refine idle_at boundary (fun stops => Bool.true_eq_false.mp (halted.symm.trans stops.1)) ?_
    rw [Cpu.step_of_idles boundary halted]
    exact cpu.choosing_speed
  · refine idle_at boundary (fun stops => Bool.true_eq_false.mp (serves.symm.trans stops.2.1)) ?_
    exact (sound.spares_serving boundary serves present).2
  · refine idle_at boundary (fun stops => Bool.true_eq_false.mp (serves.symm.trans stops.2.1)) ?_
    rw [Cpu.step_of_vanishes boundary serves gone]
    exact cpu.choosing_speed
  · by_cases stops : Instruction.ofOpcode (opcodeFetched cpu bus) = .stop
    · rw [sound.deeds_at_boundary boundary,
        if_pos ⟨awake, idle, (ofOpcode_eq_stop_iff _).1 stops⟩]
      exact h.stop model (sound.switches_fetching boundary awake idle stops).2
    · refine idle_at boundary (fun fetched => stops ((ofOpcode_eq_stop_iff _).2 fetched.2.2)) ?_
      by_cases halts : Instruction.ofOpcode (opcodeFetched cpu bus) = .halt
      · obtain ⟨w, -, -, speed⟩ := sound.halting_endsAt boundary awake idle halts
        exact speed
      · exact (sound.spares_fetching boundary awake idle halts stops).2

end Call

/-! ## Timelines -/

/-- Runs of calls from a reset on, each on whatever bus there is and ending as it may, with the deeds
since that reset.  The host may write registers and enable or disable interrupts in between. -/
inductive Timeline : List Deed → Cpu → Prop
  | new (model : Model) (skipBoot : Bool) : Timeline [] (.new model skipBoot)
  | reset {cpu : Cpu} (h : Reachable cpu) (skipBoot : Bool) : Timeline [] (cpu.reset skipBoot)
  | setRegs {past : List Deed} {cpu : Cpu} (h : Timeline past cpu) (regs : Registers) :
    Timeline past { cpu with regs := regs }
  | setIme {past : List Deed} {cpu : Cpu} (h : Timeline past cpu) (ime : Bool) :
    Timeline past { cpu with ime := ime }
  | call {past : List Deed} {cpu : Cpu} (h : Timeline past cpu) {β : Type} [Bus β] (bus : β) :
    Timeline (past ++ deeds cpu bus) (cpu.step bus).cpu

theorem Timeline.reachable {past : List Deed} {cpu : Cpu} (h : Timeline past cpu) :
    Reachable cpu := by
  induction h with
  | new model skipBoot => exact .new model skipBoot
  | reset h skipBoot => exact h.reset skipBoot
  | setRegs _ regs ih => exact ih.setRegs regs
  | setIme _ ime ih => exact ih.setIme ime
  | call _ bus ih => exact ih.step bus

/-- The past always tells. -/
theorem Timeline.tells {past : List Deed} {cpu : Cpu} (h : Timeline past cpu) : Tells past cpu := by
  have initial (cpu : Cpu) (speed : cpu.speed = cpu.model.speedSwitch) : Tells [] cpu := by
    refine ⟨?_, fun _ before prepared after split => ?_⟩
    · rw [speed]
      cases cpu.model <;> rfl
    · exact absurd split.symm (List.append_ne_nil_of_right_ne_nil before (List.cons_ne_nil _ after))
  induction h with
  | new model skipBoot => exact initial _ rfl
  | reset _ skipBoot => exact initial _ rfl
  | setRegs _ _ ih | setIme _ _ ih => exact ⟨ih.speed, ih.flagged⟩
  | call h bus ih => exact ih.step h.reachable.sound bus

/-! ## Before the machine cycle -/

section Openings

variable {β : Type} [Bus β] {cpu : Cpu} {bus : β}

/-- What a call can be at before its machine cycle. -/
inductive Opening (cpu : Cpu) (bus : β) : Position → Machine β → Prop
  | inside {s : Suspension} (under : cpu.suspended = some s) :
    Opening cpu bus s.position (Machine.begun ⟨cpu, bus, []⟩)
  | serving (boundary : cpu.suspended = none) :
    Opening cpu bus interruptMicroprogram.position ⟨cpu.choosing, (Bus.poll bus).2, []⟩
  | acknowledged {line : InterruptSet} {m : Machine β}
    (shown : m.scene [] = sceneAcknowledged cpu bus line) : Opening cpu bus acknowledgedPosition m
  /-- Some of the transfers in front of the read that fetches the opcode are still to come. -/
  | fetching (ts : List Transfer) {m : Machine β} (speed : m.cpu.speed = cpu.speed) :
    Opening cpu bus ⟨Microcode.internal ts ++ Microcode.read, .decode⟩ m

/-- A call that enters a position opens there. -/
theorem opening_of_enter {p : Position} {m : Machine β}
    (begins : Machine.enter ⟨cpu, bus, []⟩ = .ok (some p) m) : Opening cpu bus p m := by
  have served (boundary : cpu.suspended = none) (serves : cpu.serves bus = true) :
      Opening cpu bus p m := by
    rw [enter_of_serves boundary serves] at begins
    cases begins
    exact .serving boundary
  rcases cpu.callKind bus with ⟨s, under⟩ | ⟨boundary, halted⟩ | ⟨boundary, serves, _, _⟩
    | ⟨boundary, serves, _⟩ | ⟨boundary, awake, idle⟩
  · rw [enter_of_suspended under] at begins
    cases begins
    exact .inside under
  · cases begins.symm.trans (enter_of_halted (m := ⟨cpu, bus, []⟩) boundary halted)
  · exact served boundary serves
  · exact served boundary serves
  · rw [enter_of_fetches boundary awake idle] at begins
    cases begins
    exact .fetching [.loadWord .pc, .advancePc] cpu.choosing_speed

/-- A move in no time leaves it there. -/
theorem Opening.move {p q : Position} {m m' : Machine β} (h : Opening cpu bus p m)
    (sound : cpu.Sound) (solid : Solid ⟨cpu, bus, []⟩ p m) (instant : p.waiting = false)
    (move : p.advance m = .ok (some q) m') : Opening cpu bus q m' := by
  cases h with
  | inside | acknowledged => cases instant
  | serving boundary =>
    cases present : (Bus.poll (Bus.poll bus).2).1.first? with
    | some line =>
      obtain ⟨m₁, moves, shown, -⟩ := sound.acknowledges boundary present
      cases move.symm.trans moves
      exact .acknowledged shown
    | none =>
      have gone := (InterruptSet.first?_eq_none_iff _).1 present
      cases move.symm.trans (advance_interrupt_of_isEmpty (m := ⟨cpu.choosing, _, []⟩) gone)
  | fetching ts speed =>
    cases ts with
    | nil => cases instant
    | cons t ts =>
      -- the move is the transfer, which has nothing to do with the speed switch
      cases solid with
      | balanced _ balanced _ =>
        obtain ⟨r, m₁, e, acts, -⟩ := Position.advance_of_balanced balanced
        cases move.symm.trans e
        obtain ⟨w, act, same⟩ := Option.map_eq_some_iff.1 acts
        cases same
        have spares : Spares ⟨[.transfer t], .decode⟩ (m.scene []) (m'.scene []) :=
          MicroStep.act_ordinary rfl act
        exact .fetching ts (spares.speed.trans speed)

/-- So it is with every moment before the machine cycle. -/
theorem Moment.opening {p : Position} {m : Machine β} {k : Nat}
    (moment : Moment ⟨cpu, bus, []⟩ k p m) (sound : cpu.Sound) (before : k = 1) :
    Opening cpu bus p m := by
  induction moment with
  | entered begins => exact opening_of_enter begins
  | moved h instant move ih => exact (ih before).move sound (h.solid sound) instant move
  | ticked => cases before

/-- The speed switch is still as the call found it. -/
theorem Opening.speed {p : Position} {m : Machine β} (h : Opening cpu bus p m) :
    m.cpu.speed = cpu.speed := by
  cases h with
  | inside => rfl
  | serving => exact cpu.choosing_speed
  | acknowledged shown => exact congrArg (fun v : Scene β => v.out.speed) shown
  | fetching _ speed => exact speed

/-- Data is written only inside an instruction, where the call can be told beforehand to do it. -/
theorem Opening.access? {rest : List MicroStep} {ending : Ending} {m : Machine β} {a : UInt16}
    {value : UInt8} {xs : List UInt8} (h : Opening cpu bus ⟨.cycle .write :: rest, ending⟩ m)
    (stack : m.cpu.scratch.toList = onTop a (value :: xs)) :
    cpu.access? = some (.write a value) := by
  generalize standing : (⟨.cycle .write :: rest, ending⟩ : Position) = p at h
  cases h with
  | @inside s under =>
    obtain ⟨c, rest, exit⟩ := s
    cases standing
    have stack : cpu.scratch.toList = onTop a (value :: xs) := stack
    rw [Cpu.access?, under, stack]
    show some (Demand.write (Word.ofBytes _ _) value) = _
    rw [Word.ofBytes_high_low]
  | serving | acknowledged => cases standing
  | fetching ts => cases ts <;> cases standing

/-- A read before which the stack holds an address puts there what is read. -/
theorem Solid.advance_read {m₀ m : Machine β} {rest : List MicroStep} {ending : Ending}
    {a : UInt16} {xs : List UInt8} (h : Solid m₀ ⟨.cycle .read :: rest, ending⟩ m)
    (stack : m.cpu.scratch.toList = onTop a xs) :
    ∃ m', Position.advance ⟨.cycle .read :: rest, ending⟩ m = .ok (some ⟨rest, ending⟩) m'
      ∧ m'.scene [] = ⟨((m.scene []).out.load a).1 :: xs, m.cpu.core, ((m.scene []).out.load a).2⟩ := by
  generalize standing : (⟨.cycle .read :: rest, ending⟩ : Position) = p at h
  cases h with
  | serving => cases standing
  | balanced _ balanced _ =>
    subst standing
    obtain ⟨r, m', e, acts, -⟩ := Position.advance_of_balanced balanced
    have shown : m.scene [] = ⟨onTop a xs, m.cpu.core, (m.scene []).out⟩ :=
      congrArg (fun xs => (⟨xs, m.cpu.core, (m.scene []).out⟩ : Scene β)) stack
    rw [shown] at acts
    simp only [Position.act, MicroStep.act, onTop, MachineCycle.act, Word.ofBytes_high_low,
      Option.map_some, Option.some.injEq, Prod.mk.injEq] at acts
    obtain ⟨rfl, scene⟩ := acts
    exact ⟨m', e, scene.symm⟩

end Openings

/-! ## What the register shows -/

/-- What the register of the speed switch reads as after a past: the speed in bit 7, the preparation in
bit 0, and ones between. -/
def registerAfter (past : List Deed) : UInt8 :=
  (0x7E : UInt8) ||| (switchAfter past).doubleSpeed.toUInt8 <<< (7 : UInt8)
    ||| (switchAfter past).prepared.toUInt8

theorem read_switchAfter (past : List Deed) : (switchAfter past).read = registerAfter past := by
  rw [registerAfter]
  obtain ⟨double, prepared⟩ := switchAfter past
  cases double <;> cases prepared <;> rfl

/-- Whether the register stands at an address: on the colour model, at one. -/
def Model.HasSwitchAt (model : Model) (a : UInt16) : Prop :=
  model = .cgb ∧ a = SpeedSwitch.address

instance (model : Model) (a : UInt16) : Decidable (model.HasSwitchAt a) :=
  inferInstanceAs (Decidable (_ ∧ _))

/-- What a past tells about the speed switch, and a call about the register. -/
structure TellsSpeed {β : Type} [Bus β] (past : List Deed) (cpu : Cpu) (bus : β) : Prop where
  /-- The monochrome model has no speed switch. -/
  monochrome : cpu.model = .dmg → cpu.speed = none
  /-- On the colour model the past tells its two bits, and has it right what each `STOP` found. -/
  colour : cpu.model = .cgb → cpu.speed = some (switchAfter past) ∧ Flagged past
  /-- Up to its machine cycle the call leaves the speed switch as it is. -/
  still : ∀ p m, Moment ⟨cpu, bus, []⟩ 1 p m → m.cpu.speed = cpu.speed
  /-- Whatever reads data, an opcode fetch included: at the register it is given what the past tells,
  and the bus is not asked. -/
  reads : ∀ rest ending m a xs, Moment ⟨cpu, bus, []⟩ 1 ⟨.cycle .read :: rest, ending⟩ m →
    m.cpu.scratch.toList = onTop a xs →
    ∃ m', Position.advance ⟨.cycle .read :: rest, ending⟩ m = .ok (some ⟨rest, ending⟩) m'
      ∧ if cpu.model.HasSwitchAt a then
          m'.cpu.scratch.toList = registerAfter past :: xs ∧ m'.bus = m.bus
        else m'.cpu.scratch.toList = (Bus.read a m.bus).1 :: xs ∧ m'.bus = (Bus.read a m.bus).2
  /-- Whatever writes data is among the deeds. -/
  written : ∀ rest ending m a value xs, Moment ⟨cpu, bus, []⟩ 1 ⟨.cycle .write :: rest, ending⟩ m →
    m.cpu.scratch.toList = onTop a (value :: xs) → deeds cpu bus = [.write a value]
  /-- And what is not sent to the register is sent to the bus. -/
  writes : ∀ a value, deeds cpu bus = [.write a value] →
    (cpu.step bus).bus = if cpu.model.HasSwitchAt a then bus else Bus.write a value bus

section Tell

variable {β : Type} [Bus β] {past : List Deed} {cpu : Cpu}

/-- A model with a speed switch finds its register at one address. -/
theorem Tells.speedAt? (h : Tells past cpu) (a : UInt16) :
    (if a = SpeedSwitch.address then cpu.speed else none)
      = if cpu.model.HasSwitchAt a then some (switchAfter past) else none := by
  rw [h.speed]
  by_cases at_ : a = SpeedSwitch.address
  · cases which : cpu.model with
    | dmg =>
      rw [if_pos at_, if_neg (fun has => Model.noConfusion has.1)]
      rfl
    | cgb =>
      rw [if_pos at_, if_pos ⟨rfl, at_⟩]
      rfl
  · rw [if_neg at_, if_neg fun has => at_ has.2]

/-- What is read where. -/
theorem Tells.load (h : Tells past cpu) (o : Outside β) (same : o.speed = cpu.speed) (a : UInt16) :
    ((o.load a).1, (o.load a).2.bus) = if cpu.model.HasSwitchAt a then (registerAfter past, o.bus)
      else ((Bus.read a o.bus).1, (Bus.read a o.bus).2) := by
  rw [Outside.load, Outside.speedAt?, same, h.speedAt?, ← read_switchAfter]
  by_cases has : cpu.model.HasSwitchAt a
  · rw [if_pos has, if_pos has]
    rfl
  · rw [if_neg has, if_neg has]

/-- What a write leaves of the bus. -/
theorem Tells.meet (h : Tells past cpu) (a : UInt16) (value : UInt8) (bus : β) :
    Demand.meet (Demand.unlessSwitch cpu.speed a (.write a value)) bus
      = if cpu.model.HasSwitchAt a then bus else Bus.write a value bus := by
  rw [Demand.unlessSwitch, h.speedAt?]
  by_cases has : cpu.model.HasSwitchAt a
  · rw [if_pos has, if_pos has]
    rfl
  · rw [if_neg has, if_neg has]
    rfl

/-- A write among the deeds is the access that the call makes. -/
theorem access?_of_deeds {bus : β} {a : UInt16} {value : UInt8}
    (deed : deeds cpu bus = [.write a value]) : cpu.access? = some (.write a value) := by
  rw [deeds] at deed
  match access : cpu.access?, deed with
  | some (.write a' value'), deed =>
    obtain ⟨same, -⟩ := List.cons.inj deed
    cases same
    rfl
  | none, deed | some (.read _), deed =>
    rw [List.nil_append] at deed
    split at deed
    · cases deed
    · cases deed

/-- What is told of a past that has been lived through. -/
theorem Tells.told (h : Tells past cpu) (sound : cpu.Sound) (bus : β) :
    TellsSpeed past cpu bus := by
  have still {p : Position} {m : Machine β} (moment : Moment ⟨cpu, bus, []⟩ 1 p m) :
      m.cpu.speed = cpu.speed := (moment.opening sound rfl).speed
  refine ⟨fun which => ?_, fun which => ⟨?_, h.flagged which⟩, fun p m => still, ?_, ?_, ?_⟩
  · rw [h.speed, which]
    rfl
  · rw [h.speed, which]
    rfl
  · intro rest ending m a xs moment stack
    obtain ⟨m', move, scene⟩ := (moment.solid sound).advance_read stack
    refine ⟨m', move, ?_⟩
    have loaded := h.load (m.scene []).out (still moment) a
    have stack' : m'.cpu.scratch.toList = _ := congrArg Scene.stack scene
    have bus' : m'.bus = _ := congrArg (fun v : Scene β => v.out.bus) scene
    rw [stack', bus']
    split at loaded
    next has =>
      rw [if_pos has]
      obtain ⟨value, bus⟩ := Prod.mk.inj loaded
      exact ⟨congrArg (· :: xs) value, bus⟩
    next has =>
      rw [if_neg has]
      obtain ⟨value, bus⟩ := Prod.mk.inj loaded
      exact ⟨congrArg (· :: xs) value, bus⟩
  · intro rest ending m a value xs moment stack
    have access := (moment.opening sound rfl).access? stack
    obtain ⟨s, under, -⟩ := Option.bind_eq_some_iff.1 access
    rw [sound.deeds_inside under, access]
  · intro a value deed
    have access := access?_of_deeds deed
    obtain ⟨s, under, -⟩ := Option.bind_eq_some_iff.1 access
    have met : (cpu.step bus).bus = Demand.meet cpu.demand? bus :=
      congrArg Upshot.bus (sound.step_inside under bus).2
    rw [met, cpu.demand?_eq, access]
    exact h.meet a value bus

end Tell

/-- In every run in which the host leaves the register alone, the past tells all about it. -/
theorem Timeline.tellsSpeed {past : List Deed} {cpu : Cpu} (h : Timeline past cpu) {β : Type}
    [Bus β] (bus : β) : TellsSpeed past cpu bus := h.tells.told h.reachable.sound bus

/-- The colour model stores the accumulator in the register and stops. -/
def storeAndStop : Bus.Scripted (Bus.Blocked Memory) :=
  ⟨[(0x0100, 0xE0), (0x0101, 0x4D), (0x0102, 0x10)], openBus⟩

/-- The processor after that. -/
def afterStoreAndStop : Cpu := (Cpu.new .cgb true).after (fun _ => storeAndStop) 4

/-- It runs at double speed, with nothing prepared. -/
theorem Timeline.tellsSpeed_doubled :
    Timeline [.write 0xFF4D 0x11, .stop true] afterStoreAndStop
      ∧ TellsSpeed [.write 0xFF4D 0x11, .stop true] afterStoreAndStop openBus
      ∧ afterStoreAndStop.speed = some ⟨true, false⟩ := by
  have run := (((Timeline.new .cgb true).call storeAndStop).call storeAndStop).call storeAndStop
  have run := run.call storeAndStop
  have past : ((([] ++ deeds (.new .cgb true) storeAndStop)
      ++ deeds ((Cpu.new .cgb true).after (fun _ => storeAndStop) 1) storeAndStop)
      ++ deeds ((Cpu.new .cgb true).after (fun _ => storeAndStop) 2) storeAndStop)
      ++ deeds ((Cpu.new .cgb true).after (fun _ => storeAndStop) 3) storeAndStop
      = [.write 0xFF4D 0x11, .stop true] := by decide +kernel
  have run : Timeline [.write 0xFF4D 0x11, .stop true] afterStoreAndStop := past ▸ run
  have tells := Timeline.tellsSpeed run openBus
  exact ⟨run, tells, (tells.colour (by decide +kernel)).1⟩

end Sm83
