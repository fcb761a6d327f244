import Sm83.Proofs.Microstep.Ordinary

/-!
# Two processors side by side

Two processors whose surroundings differ go through the same moves as long as neither can tell the
difference.  A move reaches its surroundings in four ways only: it loads, it stores, it polls the
interrupt registers, or it works the speed switch.  So it is enough to know that those four keep the
surroundings alike, and everything inside the processor goes along.

* `Beside S B` — two outsides with the same events, speed switches related by `S` and buses by `B`.
* `Lockstep` — what it takes: accesses at the addresses that are allowed answer alike and keep the
  buses related.
* `Abreast` — two scenes with the same stack and the same core beside each other.
* `Lockstep.act` — a move keeps scenes abreast.

One part of the core may differ for a while.  The address of the last opcode is looked at only for
events that name it, and behind the last of them (`Speaks`) an old address makes no difference.
-/

namespace Sm83

variable {β γ : Type}

/-! ## The address of the opcode -/

/-- The same core with another opcode address. -/
def Core.addressed (c : Core) (a : UInt16) : Core := { c with opcodeAddress := a }

/-- A transfer neither looks at the opcode address nor changes it. -/
theorem Transfer.act_addressed (t : Transfer) (xs : List UInt8) (c : Core) (a : UInt16) :
    t.act xs (c.addressed a) = (t.act xs c).map fun r => (r.1, r.2.addressed a) := by
  cases t with
  | advancePc =>
    obtain ⟨regs, ime, pending, delay, halted, haltBug, address⟩ := c
    cases haltBug <;> rfl
  | loadByte _ | loadWord _ | constant _ | stackSlot | incSp | incHl | decHl | adjust _
  | enableInterruptsLater | disableInterrupts | enableInterrupts => rfl
  | storeByte _ | highPage | unary _ | testBit _ | addSpOffset | jumpRelative => cases xs <;> rfl
  | storeWord _ | incWord | decWord | alu _ => rcases xs with _ | ⟨_, _ | _⟩ <;> rfl
  | addWords | splitWord _ =>
    rcases xs with _ | ⟨_, _ | ⟨_, _ | ⟨_, _ | _⟩⟩⟩ <;> rfl

theorem Transfer.act_opcodeAddress {t : Transfer} {xs ys : List UInt8} {c c' : Core}
    (h : t.act xs c = some (ys, c')) : c'.opcodeAddress = c.opcodeAddress := by
  have same := t.act_addressed xs c c.opcodeAddress
  rw [show c.addressed c.opcodeAddress = c from rfl, h] at same
  have kept : c' = c'.addressed c.opcodeAddress := congrArg Prod.snd (Option.some.inj same)
  rw [kept]
  rfl

/-- The rest of the instruction still has an event to record that can name the opcode address. -/
def Speaks : Option Position → Prop
  | none => False
  | some p => p.ending ≠ .exit .retire ∨ ∃ c, MicroStep.control c ∈ p.steps

/-- What is silent stays so. -/
theorem Speaks.of_step {s : MicroStep} {rest : List MicroStep} {ending : Ending}
    (h : Speaks (some ⟨rest, ending⟩)) : Speaks (some ⟨s :: rest, ending⟩) :=
  h.imp id fun ⟨c, member⟩ => ⟨c, List.mem_cons_of_mem s member⟩

/-! ## Surroundings -/

/-- How the speed switches of two processors are related, where they have one. -/
abbrev SwitchRelation := Option SpeedSwitch → Option SpeedSwitch → Prop

/-- Two outsides with the same events, speed switches related by `S`, and buses related by `B`. -/
structure Beside (S : SwitchRelation) (B : β → γ → Prop)
    (o : Outside β) (o' : Outside γ) : Prop where
  events : o'.events = o.events
  speed : S o.speed o'.speed
  bus : B o.bus o'.bus

variable {S : SwitchRelation} {B : β → γ → Prop}

theorem Beside.note {o : Outside β} {o' : Outside γ} (h : Beside S B o o') (e : Event) :
    Beside S B (o.note e) (o'.note e) :=
  ⟨congrArg (· ++ [e]) h.events, h.speed, h.bus⟩

variable [Bus β] [Bus γ]

/-- What it takes for two processors not to notice a difference, as long as data is accessed at the
addresses that are allowed. -/
structure Lockstep (allowed : UInt16 → Prop) (S : SwitchRelation) (B : β → γ → Prop) : Prop where
  /-- Both are polled. -/
  polled : allowed enableAddress ∧ allowed requestAddress
  /-- If data can reach a speed switch, both have the same. -/
  shared : allowed SpeedSwitch.address → ∀ s s', S s s' → s' = s
  /-- A switch that both have can be set. -/
  set : ∀ s t, S (some s) (some s) → S (some t) (some t)
  /-- A `STOP` works a switch that both have, or none. -/
  stops : ∀ s s', S s s' → s' = s
    ∨ (s.any (·.prepared) = false ∧ s'.any (·.prepared) = false)
  /-- An access that comes to the bus is answered alike. -/
  read : ∀ a s s' b b', allowed a → S s s' → (a = SpeedSwitch.address → s = none) → B b b' →
    (Bus.read a b').1 = (Bus.read a b).1 ∧ B (Bus.read a b).2 (Bus.read a b').2
  write : ∀ a value s s' b b', allowed a → S s s' → (a = SpeedSwitch.address → s = none) → B b b' →
    B (Bus.write a value b) (Bus.write a value b')

/-- Work the speed switch.  Only where it was prepared does that do more than to be noted. -/
def Outside.stop (a : UInt16) (o : Outside β) : Outside β :=
  match o.speed.map SpeedSwitch.switch with
  | some (true, speed) => { o with speed := some speed }.note (.speedSwitched speed.doubleSpeed)
  | _ => o.note (.stopIgnored a)

theorem Control.stop_act_eq (xs : List UInt8) (c : Core) (o : Outside β) :
    Control.stop.act ⟨xs, c, o⟩ = some ⟨xs, c, o.stop c.opcodeAddress⟩ := by
  obtain ⟨speed, bus, events⟩ := o
  match speed with
  | none | some ⟨_, true⟩ | some ⟨_, false⟩ => rfl

omit [Bus β] in
/-- Where nothing was prepared, the speed stays. -/
theorem Outside.stop_of_unprepared (a : UInt16) {o : Outside β}
    (h : o.speed.any (·.prepared) = false) : o.stop a = o.note (.stopIgnored a) := by
  obtain ⟨speed, bus, events⟩ := o
  match speed, h with
  | none, _ | some ⟨_, false⟩, _ => rfl

namespace Lockstep

variable {allowed : UInt16 → Prop} {o : Outside β} {o' : Outside γ}

/-- A load answers alike. -/
theorem load (lock : Lockstep allowed S B) {a : UInt16} (ok : allowed a) (h : Beside S B o o') :
    (o'.load a).1 = (o.load a).1 ∧ Beside S B (o.load a).2 (o'.load a).2 := by
  obtain ⟨s, b, events⟩ := o
  obtain ⟨s', b', events'⟩ := o'
  obtain ⟨recorded, speeds, buses⟩ := h
  have passed (off : a = SpeedSwitch.address → s = none) :=
    lock.read a s s' b b' ok speeds off buses
  rw [Outside.load, Outside.load, Outside.speedAt?, Outside.speedAt?]
  -- at the register both have the same switch, so it answers for both or for none
  by_cases reached : a = SpeedSwitch.address
  · obtain rfl := lock.shared (reached ▸ ok) s s' speeds
    rw [if_pos reached]
    cases s' with
    | some speed => exact ⟨rfl, Beside.note ⟨recorded, speeds, buses⟩ _⟩
    | none =>
      obtain ⟨answer, after⟩ := passed fun _ => rfl
      exact ⟨answer, recorded, speeds, after⟩
  · rw [if_neg reached, if_neg reached]
    obtain ⟨answer, after⟩ := passed fun e => absurd e reached
    exact ⟨answer, recorded, speeds, after⟩

/-- A store keeps outsides beside each other. -/
theorem store (lock : Lockstep allowed S B) {a : UInt16} (ok : allowed a) (value : UInt8)
    (h : Beside S B o o') : Beside S B (o.store a value) (o'.store a value) := by
  obtain ⟨s, b, events⟩ := o
  obtain ⟨s', b', events'⟩ := o'
  obtain ⟨recorded, speeds, buses⟩ := h
  have passed (off : a = SpeedSwitch.address → s = none) :=
    lock.write a value s s' b b' ok speeds off buses
  rw [Outside.store, Outside.store, Outside.speedAt?, Outside.speedAt?]
  by_cases reached : a = SpeedSwitch.address
  · obtain rfl := lock.shared (reached ▸ ok) s s' speeds
    rw [if_pos reached]
    cases s' with
    | some speed =>
      have written : Beside S B ⟨some (speed.write value), b, events⟩
          ⟨some (speed.write value), b', events'⟩ := ⟨recorded, lock.set _ _ speeds, buses⟩
      exact written.note _
    | none => exact ⟨recorded, speeds, passed fun _ => rfl⟩
  · rw [if_neg reached, if_neg reached]
    exact ⟨recorded, speeds, passed fun e => absurd e reached⟩

/-- And so does a `STOP`. -/
theorem stop (lock : Lockstep allowed S B) (a : UInt16) (h : Beside S B o o') :
    Beside S B (o.stop a) (o'.stop a) := by
  rcases lock.stops _ _ h.speed with same | ⟨idle, idle'⟩
  · obtain ⟨s, b, events⟩ := o
    obtain ⟨s', b', events'⟩ := o'
    obtain rfl : s' = s := same
    match s', h with
    | none, h | some ⟨_, false⟩, h => exact h.note _
    | some ⟨double, true⟩, h =>
      have switched : Beside S B ⟨some ⟨!double, false⟩, b, events⟩
          ⟨some ⟨!double, false⟩, b', events'⟩ := ⟨h.events, lock.set _ _ h.speed, h.bus⟩
      exact switched.note _
  · rw [Outside.stop_of_unprepared a idle, Outside.stop_of_unprepared a idle']
    exact h.note _

/-- The interrupt registers are read alike. -/
theorem bytes (lock : Lockstep allowed S B) (h : Beside S B o o') :
    ∃ enabled requested b b', Bus.interruptBytes o.bus = (enabled, requested, b)
      ∧ Bus.interruptBytes o'.bus = (enabled, requested, b')
      ∧ Beside S B { o with bus := b } { o' with bus := b' } := by
  obtain ⟨enabled, first⟩ := lock.read enableAddress _ _ _ _ lock.polled.1 h.speed
    (fun e => absurd e (by decide)) h.bus
  obtain ⟨requested, second⟩ := lock.read requestAddress _ _ _ _ lock.polled.2 h.speed
    (fun e => absurd e (by decide)) first
  refine ⟨_, _, _, (Bus.interruptBytes o'.bus).2.2, rfl, ?_, h.events, h.speed, second⟩
  rw [← enabled, ← requested]
  rfl

/-- So both see the same lines. -/
theorem poll (lock : Lockstep allowed S B) (h : Beside S B o o') :
    (Bus.poll o'.bus).1 = (Bus.poll o.bus).1
      ∧ Beside S B { o with bus := (Bus.poll o.bus).2 } { o' with bus := (Bus.poll o'.bus).2 } := by
  obtain ⟨enabled, requested, b, b', e, e', after⟩ := lock.bytes h
  rw [Bus.poll, Bus.poll, e, e']
  exact ⟨rfl, after⟩

/-- The request register is written alike. -/
theorem withdraw (lock : Lockstep allowed S B) (value : UInt8) (h : Beside S B o o') :
    Beside S B { o with bus := Bus.write requestAddress value o.bus }
      { o' with bus := Bus.write requestAddress value o'.bus } :=
  ⟨h.events, h.speed, lock.write _ _ _ _ _ _ lock.polled.2 h.speed
    (fun e => absurd e (by decide)) h.bus⟩

end Lockstep

/-! ## Scenes -/

/-- Two scenes, each with so much of the instruction to come, that differ in their surroundings only.
The opcode addresses are the same where `same` holds, and where it does not, as long as an event can
tell. -/
structure Abreast (same : Prop) (S : SwitchRelation) (B : β → γ → Prop)
    (r : Option Position) (v : Scene β) (v' : Scene γ) : Prop where
  stack : v'.stack = v.stack
  core : v'.core = v.core.addressed v'.core.opcodeAddress
  address : same ∨ Speaks r → v'.core.opcodeAddress = v.core.opcodeAddress
  out : Beside S B v.out v'.out

omit [Bus β] [Bus γ] in
/-- Where the opcode addresses are the same, the whole core is. -/
theorem Abreast.core_eq {same : Prop} {r : Option Position} {v : Scene β} {v' : Scene γ}
    (h : Abreast same S B r v v') (told : same ∨ Speaks r) : v'.core = v.core := by
  rw [h.core, h.address told]
  rfl

namespace Lockstep

variable {allowed : UInt16 → Prop} {same : Prop} {rest : List MicroStep} {ending : Ending}
  {v w : Scene β} {v' : Scene γ}

/-- A transfer computes the same. -/
theorem transfer {t : Transfer} (h : Abreast same S B (some ⟨.transfer t :: rest, ending⟩) v v')
    (acts : MicroStep.act (.transfer t) v = some w) :
    ∃ w', MicroStep.act (.transfer t) v' = some w' ∧ Abreast same S B (some ⟨rest, ending⟩) w w' := by
  obtain ⟨xs, c, o⟩ := v
  obtain ⟨xs', c', o'⟩ := v'
  obtain ⟨rfl, core, address, out⟩ := h
  obtain ⟨⟨ys, d⟩, inside, rfl⟩ := Option.map_eq_some_iff.1 acts
  have kept : d.opcodeAddress = c.opcodeAddress := Transfer.act_opcodeAddress inside
  have inside' : t.act xs' c' = some (ys, d.addressed c'.opcodeAddress) := by
    rw [show c' = _ from core, Transfer.act_addressed, inside]
    rfl
  refine ⟨⟨ys, d.addressed c'.opcodeAddress, o'⟩, ?_, rfl, rfl, fun told => ?_, out⟩
  · rw [MicroStep.act, inside']
    rfl
  · exact (address (told.imp id Speaks.of_step)).trans kept.symm

/-- A machine cycle accesses the same. -/
theorem cycle (lock : Lockstep allowed S B) {c : MachineCycle}
    (h : Abreast same S B (some ⟨.cycle c :: rest, ending⟩) v v')
    (within : ∀ d ∈ c.access? v.stack, allowed d.address)
    (acts : MicroStep.act (.cycle c) v = some w) :
    ∃ w', MicroStep.act (.cycle c) v' = some w' ∧ Abreast same S B (some ⟨rest, ending⟩) w w' := by
  obtain ⟨xs, core, o⟩ := v
  obtain ⟨xs', core', o'⟩ := v'
  obtain ⟨rfl, same_core, address, out⟩ := h
  have told (told : same ∨ Speaks (some ⟨rest, ending⟩)) :=
    address (told.imp id Speaks.of_step)
  match c, xs', within, acts with
  | .read, hi :: lo :: xs, within, rfl =>
    obtain ⟨answer, after⟩ := lock.load (within _ rfl) out
    exact ⟨_, rfl, congrArg (· :: xs) answer, same_core, told, after⟩
  | .write, hi :: lo :: value :: xs, within, rfl =>
    exact ⟨_, rfl, rfl, same_core, told, lock.store (within _ rfl) value out⟩
  | .delay, xs, _, rfl => exact ⟨_, rfl, rfl, same_core, told, out⟩

/-- What reaches beyond the processor in no time meets the same. -/
theorem control (lock : Lockstep allowed S B) {c : Control}
    (h : Abreast same S B (some ⟨.control c :: rest, ending⟩) v v') (acts : c.act v = some w) :
    ∃ w', c.act v' = some w' ∧ Abreast same S B (some ⟨rest, ending⟩) w w' := by
  -- a `STOP` and an undefined opcode name the opcode address in what they note
  have cores := h.core_eq (.inr (.inr ⟨c, List.mem_cons_self⟩))
  obtain ⟨xs, core, o⟩ := v
  obtain ⟨xs', core', o'⟩ := v'
  obtain ⟨rfl, -, -, out⟩ := h
  obtain rfl : core' = core := cores
  match c with
  | .halt =>
    obtain ⟨lines, after⟩ := lock.poll out
    simp only [Control.act, lines] at acts ⊢
    cases acts
    refine ⟨_, rfl, ?_⟩
    split
    · exact ⟨rfl, rfl, fun _ => rfl, after.note _⟩
    · exact ⟨rfl, rfl, fun _ => rfl, after.note _⟩
  | .stop =>
    rw [Control.stop_act_eq] at acts ⊢
    cases acts
    exact ⟨_, rfl, rfl, rfl, fun _ => rfl, lock.stop _ out⟩
  | .undefined =>
    cases acts
    exact ⟨_, rfl, rfl, rfl, fun _ => rfl, out.note _⟩
  | .acknowledge =>
    obtain ⟨enabled, requested, b, b', e, e', after⟩ := lock.bytes out
    simp only [Control.act, e, e'] at acts ⊢
    cases present : (InterruptSet.ofByte (enabled &&& requested)).first? with
    | none =>
      rw [present] at acts
      cases acts
    | some line =>
      rw [present] at acts
      cases acts
      exact ⟨_, rfl, rfl, rfl, fun _ => rfl, (lock.withdraw _ after).note _⟩

/-- A move keeps two scenes abreast, if its access is allowed. -/
theorem act (lock : Lockstep allowed S B) {p : Position} {r : Option Position}
    (h : Abreast same S B (some p) v v') (within : ∀ d ∈ p.access? v, allowed d.address)
    (acts : p.act v = some (r, w)) :
    ∃ w', p.act v' = some (r, w') ∧ Abreast same S B r w w' := by
  obtain ⟨steps, ending⟩ := p
  -- at the end of a row only `RETIRE` is silent
  have cores (loud : ending ≠ .exit .retire) : v'.core = v.core := h.core_eq (.inr (.inl loud))
  match steps, ending with
  | s :: rest, ending =>
    obtain ⟨u, first, e⟩ := Option.map_eq_some_iff.1 acts
    cases e
    suffices ∃ w', s.act v' = some w' ∧ Abreast same S B (some ⟨rest, ending⟩) w w' by
      obtain ⟨w', first', beside⟩ := this
      exact ⟨w', congrArg (Option.map _) first', beside⟩
    match s with
    | .transfer t => exact transfer h first
    | .cycle c => exact lock.cycle h within first
    | .control c => exact lock.control h first
  | [], .exit .retire =>
    cases acts
    exact ⟨v', rfl, h.stack, h.core, fun told => h.address (told.imp id False.elim), h.out⟩
  | [], .exit (.branch condition taken leftover) =>
    have cores := cores (by rintro ⟨⟩)
    obtain ⟨xs, core, o⟩ := v
    obtain ⟨xs', core', o'⟩ := v'
    obtain ⟨rfl, -, -, out⟩ := h
    obtain rfl : core' = core := cores
    simp only [Position.act] at acts ⊢
    split at acts
    next holds =>
      cases acts
      rw [if_pos holds]
      exact ⟨_, rfl, rfl, rfl, fun _ => rfl, out⟩
    next fails =>
      rw [if_neg fails]
      split at acts
      next enough =>
        cases acts
        rw [if_pos enough]
        exact ⟨_, rfl, rfl, rfl, fun _ => rfl, out⟩
      next => cases acts
  | [], .decode | [], .exit .prefixed =>
    have cores := cores (by rintro ⟨⟩)
    obtain ⟨xs, core, o⟩ := v
    obtain ⟨xs', core', o'⟩ := v'
    obtain ⟨rfl, -, -, out⟩ := h
    obtain rfl : core' = core := cores
    cases xs' with
    | nil => cases acts
    | cons opcode xs =>
      cases acts
      exact ⟨_, rfl, rfl, rfl, fun _ => rfl, out.note _⟩

end Lockstep

end Sm83
