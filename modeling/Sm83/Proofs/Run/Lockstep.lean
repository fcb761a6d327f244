import Sm83.Proofs.Microstep.Abreast
import Sm83.Proofs.Run.Accesses
import Sm83.Proofs.Run.Spared

/-!
# Two runs side by side

Moves keep two scenes abreast (`Microstep.Abreast`).  From there it goes up in two steps: a call keeps
two processors abreast, and so does a run, in which a host may work on the buses between the calls.

* `SetsOff` — where a call stands after its machine cycle.  `Cpu.Sound.arrives_of_setsOff`: it arrives
  where moves in no time lead from there, and `Cpu.Sound.towards`: so they lead somewhere.
* `Cpu.Abreast` — two processors and their buses between two calls.  `Lockstep.step`: one call.
* `Cpu.hosted` — a run with a host, call by call.  `Lockstep.hosted`: any number of calls.
* `Lockstep.recorded` — two processors that cannot tell two buses apart leave the same record on them.
* `Cpu.Indistinct` — processors that differ in leftovers only.  `Lockstep.indistinct`: they stay so.
-/

namespace Sm83

open Machine
open Bus (Access Recorded)

/-! ## Where a call sets off -/

section Calls

variable {β : Type} [Bus β] {cpu : Cpu} {bus : β} {r : Option Position} {v : Scene β}

/-- After its machine cycle a call stands there; what is left of it are moves in no time.  A call that
idles and one that fails make no moves. -/
inductive SetsOff (cpu : Cpu) (bus : β) : Option Position → Scene β → Prop
  | inside (s : Suspension) (under : cpu.suspended = some s) {r : Option Position} {v : Scene β}
    (acts : s.position.act (sceneInside cpu bus) = some (r, v)) : SetsOff cpu bus r v
  | serving (boundary : cpu.suspended = none) (serves : cpu.serves bus = true) (line : InterruptSet)
    (present : (Bus.poll (Bus.poll bus).2).1.first? = some line) {r : Option Position} {v : Scene β}
    (acts : acknowledgedPosition.act (sceneAcknowledged cpu bus line) = some (r, v)) :
    SetsOff cpu bus r v
  | fetching (boundary : cpu.suspended = none) (awake : cpu.halted = false)
    (idle : cpu.serves bus = false) :
    SetsOff cpu bus (some (Instruction.ofOpcode (opcodeFetched cpu bus)).microprogram.position)
      (sceneFetched cpu bus)

/-- A call keeps what is steady and holds where it sets off. -/
theorem Cpu.Sound.arrives_of_setsOff {K : Option Position → Scene β → Prop} (h : cpu.Sound)
    (off : SetsOff cpu bus r v) (steady : Steady K) (starts : K r v) :
    Arrives K cpu (cpu.step bus) := by
  cases off with
  | inside s under acts =>
    refine h.inside_keeps under steady fun r' w' acts' => ?_
    cases acts.symm.trans acts'
    exact starts
  | serving boundary serves line present acts =>
    refine h.serving_keeps boundary serves present steady fun r' w' acts' => ?_
    cases acts.symm.trans acts'
    exact starts
  | fetching boundary awake idle => exact h.fetching_keeps boundary awake idle steady starts

/-- It ends where its moves lead. -/
theorem Cpu.Sound.endsAt_of_setsOff {t : Option Suspension} {w : Scene β} (h : cpu.Sound)
    (off : SetsOff cpu bus r v) (towards : Towards t w r v) : EndsAt t w (cpu.step bus) :=
  (h.arrives_of_setsOff off (Towards.steady t w) towards).endsAt

/-- And they do lead there.  To be a way from `r` and `v` on is steady, seen from its end. -/
theorem Cpu.Sound.towards (h : cpu.Sound) (off : SetsOff cpu bus r v) :
    (cpu.step bus).fault = none
      ∧ Towards (cpu.step bus).cpu.suspended (cpu.step bus).scene r v := by
  let K (q : Option Position) (u : Scene β) : Prop := ∀ t w, Towards t w q u → Towards t w r v
  have steady : Steady K := by
    intro p u q u' before instant acts t w ahead
    refine before t w ?_
    match q, ahead with
    | none, ⟨done, shown⟩ =>
      rw [done, ← shown]
      exact .ends instant acts
    | some q, ahead => exact .moves instant acts ahead
  have arrives := h.arrives_of_setsOff off steady fun t w ahead => ahead
  refine ⟨arrives.faultless, arrives.shown _ _ ?_⟩
  cases (cpu.step bus).cpu.suspended with
  | none => exact ⟨rfl, rfl⟩
  | some s => exact .waits s _

/-- The choice at a boundary looks at the core. -/
theorem Cpu.choosing_core (cpu : Cpu) : cpu.choosing.core = { cpu.core with
    ime := cpu.core.ime || cpu.core.imeDelay
    imePending := cpu.core.imePending && cpu.core.imeDelay
    imeDelay := cpu.core.imePending && !cpu.core.imeDelay } := by
  rw [choosing, commitIme_eq]
  rfl

theorem Cpu.serves_eq (cpu : Cpu) (bus : β) :
    cpu.serves bus
      = (!cpu.core.halted && cpu.choosing.core.ime && !(Bus.poll bus).1.isEmpty) := by
  rw [serves, ← choosing_ime]
  rfl

end Calls

/-! ## One call -/

variable {β γ : Type} [Bus β] [Bus γ] {allowed : UInt16 → Prop} {same : Prop}
  {S : SwitchRelation} {B : β → γ → Prop}

/-- The data accesses of the next call are allowed. -/
structure Cpu.Within (allowed : UInt16 → Prop) (cpu : Cpu) (bus : β) : Prop where
  data : ∀ d ∈ cpu.access?, allowed d.address
  opcode : cpu.suspended = none → cpu.halted = false → cpu.serves bus = false → allowed cpu.regs.pc

/-- Two processors and their buses, abreast between two calls. -/
structure Cpu.Abreast (same : Prop) (S : SwitchRelation) (B : β → γ → Prop)
    (cpu : Cpu) (bus : β) (cpu' : Cpu) (bus' : γ) : Prop where
  suspended : cpu'.suspended = cpu.suspended
  scene : Sm83.Abreast same S B (cpu.suspended.map Suspension.position) (sceneInside cpu bus)
    (sceneInside cpu' bus')

/-- Two calls that ended alike: with the same fault or none, after the same events, and abreast. -/
structure Outcome.Abreast (same : Prop) (S : SwitchRelation) (B : β → γ → Prop)
    (o : Outcome β) (o' : Outcome γ) : Prop where
  fault : o'.fault = o.fault
  events : o'.events = o.events
  cpu : Cpu.Abreast same S B o.cpu o.bus o'.cpu o'.bus

omit [Bus β] [Bus γ] in
/-- Calls that show scenes abreast ended alike. -/
theorem Outcome.Abreast.of_scene {o : Outcome β} {o' : Outcome γ} (fault : o'.fault = o.fault)
    (suspended : o'.cpu.suspended = o.cpu.suspended)
    (h : Sm83.Abreast same S B (o.cpu.suspended.map Suspension.position) o.scene o'.scene) :
    Outcome.Abreast same S B o o' :=
  ⟨fault, h.out.events, suspended, h.stack, h.core, h.address, rfl, h.out.speed, h.out.bus⟩

namespace Lockstep

/-- What takes no time accesses nothing, so it needs no leave. -/
theorem act_of_instant (lock : Lockstep allowed S B) {p : Position} {r : Option Position}
    {v w : Scene β} {v' : Scene γ} (h : Abreast same S B (some p) v v') (instant : p.waiting = false)
    (acts : p.act v = some (r, w)) :
    ∃ w', p.act v' = some (r, w') ∧ Abreast same S B r w w' := by
  refine lock.act h ?_ acts
  rw [Position.access?_of_instant v instant]
  exact fun d => nofun

/-- Moves in no time lead from one of two scenes abreast where they lead from the other. -/
theorem settles (lock : Lockstep allowed S B) {p : Position} {v w : Scene β} {v' : Scene γ}
    {t : Option Suspension} (h : Settles p v t w) (abreast : Abreast same S B (some p) v v') :
    ∃ w', Settles p v' t w' ∧ Abreast same S B (t.map Suspension.position) w w' := by
  -- along the way of the first, with the second scene beside it
  induction h generalizing v' with
  | waits s v => exact ⟨v', .waits s v', abreast⟩
  | ends instant acts =>
    obtain ⟨w', acts', after⟩ := lock.act_of_instant abreast instant acts
    exact ⟨w', .ends instant acts', after⟩
  | moves instant acts _ ih =>
    obtain ⟨u', acts', after⟩ := lock.act_of_instant abreast instant acts
    obtain ⟨w', rest, last⟩ := ih after
    exact ⟨w', .moves instant acts' rest, last⟩

theorem towards (lock : Lockstep allowed S B) {r : Option Position} {v w : Scene β} {v' : Scene γ}
    {t : Option Suspension} (h : Towards t w r v) (abreast : Abreast same S B r v v') :
    ∃ w', Towards t w' r v' ∧ Abreast same S B (t.map Suspension.position) w w' := by
  match r, h with
  | none, ⟨done, shown⟩ =>
    subst done shown
    exact ⟨v', ⟨rfl, rfl⟩, abreast⟩
  | some p, h => exact lock.settles h abreast

end Lockstep

section Boundary

variable {cpu cpu' : Cpu} {bus : β} {bus' : γ}

namespace Cpu.Abreast

omit [Bus β] [Bus γ] in
/-- Both make the choice with the same core. -/
theorem choosing (h : Cpu.Abreast same S B cpu bus cpu' bus') :
    cpu'.choosing.core = cpu.choosing.core.addressed cpu'.opcodeAddress := by
  rw [cpu'.choosing_core, cpu.choosing_core, show cpu'.core = _ from h.scene.core]
  rfl

omit [Bus β] [Bus γ] in
theorem halted (h : Cpu.Abreast same S B cpu bus cpu' bus') : cpu'.halted = cpu.halted :=
  congrArg Core.halted h.scene.core

omit [Bus β] [Bus γ] in
theorem pc (h : Cpu.Abreast same S B cpu bus cpu' bus') : cpu'.regs.pc = cpu.regs.pc :=
  congrArg (fun c => c.regs.pc) h.scene.core

/-- Both see the same lines. -/
theorem poll (lock : Lockstep allowed S B) (h : Cpu.Abreast same S B cpu bus cpu' bus') :
    (Bus.poll bus').1 = (Bus.poll bus).1
      ∧ Beside S B ⟨cpu.speed, (Bus.poll bus).2, []⟩ ⟨cpu'.speed, (Bus.poll bus').2, []⟩ :=
  lock.poll h.scene.out

/-- And decide alike. -/
theorem serves (lock : Lockstep allowed S B) (h : Cpu.Abreast same S B cpu bus cpu' bus') :
    cpu'.serves bus' = cpu.serves bus := by
  rw [cpu'.serves_eq, cpu.serves_eq, h.choosing, show cpu'.core = _ from h.scene.core,
    (h.poll lock).1]
  rfl

/-- The choice leaves them abreast. -/
theorem chosen (lock : Lockstep allowed S B) (h : Cpu.Abreast same S B cpu bus cpu' bus') :
    Cpu.Abreast same S B cpu.choosing (Bus.poll bus).2 cpu'.choosing (Bus.poll bus').2 := by
  have address (cpu : Cpu) : cpu.choosing.opcodeAddress = cpu.opcodeAddress :=
    congrArg Core.opcodeAddress cpu.choosing_core
  refine ⟨cpu'.choosing_suspended.trans cpu.choosing_suspended.symm, ?_, ?_, fun told => ?_, ?_⟩
  · rw [sceneInside, sceneInside, cpu'.choosing_scratch, cpu.choosing_scratch]
    exact h.scene.stack
  · exact h.choosing.trans (congrArg _ (address cpu').symm)
  · rw [cpu.choosing_suspended] at told
    exact (address cpu').trans ((h.scene.address (told.imp id False.elim)).trans (address cpu).symm)
  · rw [sceneInside, sceneInside, cpu'.choosing_speed, cpu.choosing_speed]
    exact (h.poll lock).2

end Cpu.Abreast

/-- After the acknowledge no event names the opcode address. -/
theorem silent_interrupt : ¬ Speaks (some acknowledgedPosition) := by
  rintro (loud | ⟨c, member⟩)
  · exact loud rfl
  · revert member
    cases c <;> decide

namespace Lockstep

/-- Both acknowledge the same line. -/
theorem acknowledged (lock : Lockstep allowed S B) (h : Cpu.Abreast same S B cpu bus cpu' bus')
    (line : InterruptSet) :
    (Bus.poll (Bus.poll bus').2).1 = (Bus.poll (Bus.poll bus).2).1
      ∧ Abreast same S B (some acknowledgedPosition) (sceneAcknowledged cpu bus line)
        (sceneAcknowledged cpu' bus' line) := by
  obtain ⟨-, first⟩ := h.poll lock
  obtain ⟨lines, -⟩ := lock.poll first
  obtain ⟨enabled, requested, b, b', e, e', after⟩ := lock.bytes first
  refine ⟨lines, ?_⟩
  rw [sceneAcknowledged, sceneAcknowledged, e, e', h.choosing]
  refine ⟨rfl, rfl, fun told => ?_, (lock.withdraw _ after).note _⟩
  rw [cpu.choosing_core]
  exact h.scene.address (told.imp id fun speaks => absurd speaks silent_interrupt)

/-- Both fetch the same opcode. -/
theorem fetched (lock : Lockstep allowed S B) (h : Cpu.Abreast same S B cpu bus cpu' bus')
    (ok : allowed cpu.regs.pc) :
    opcodeFetched cpu' bus' = opcodeFetched cpu bus
      ∧ ∀ r, Abreast same S B r (sceneFetched cpu bus) (sceneFetched cpu' bus') := by
  obtain ⟨-, first⟩ := h.poll lock
  obtain ⟨answer, after⟩ := lock.load ok first
  have opcode : opcodeFetched cpu' bus' = opcodeFetched cpu bus := by
    rw [opcodeFetched, opcodeFetched, h.pc, answer]
  refine ⟨opcode, fun r => ⟨rfl, ?_, ?_, ?_⟩⟩
  · rw [sceneFetched, sceneFetched, h.choosing]
    rfl
  · rw [sceneFetched, sceneFetched, h.choosing]
    exact fun _ => rfl
  · rw [sceneFetched, sceneFetched, Outside.fetched, Outside.fetched, h.pc, answer]
    exact after.note _

/-- Calls set off abreast. -/
theorem setsOff (lock : Lockstep allowed S B) (h : Cpu.Abreast same S B cpu bus cpu' bus')
    (within : cpu.Within allowed bus) {r : Option Position} {v : Scene β}
    (off : SetsOff cpu bus r v) :
    ∃ v', SetsOff cpu' bus' r v' ∧ Abreast same S B r v v' := by
  cases off with
  | inside s under acts =>
    have scene := h.scene
    rw [under] at scene
    have data : ∀ d ∈ s.position.access? (sceneInside cpu bus), allowed d.address := by
      have data := within.data
      rwa [Cpu.access?, under] at data
    obtain ⟨v', acts', after⟩ := lock.act scene data acts
    exact ⟨v', .inside s (h.suspended.trans under) acts', after⟩
  | serving boundary serves line present acts =>
    obtain ⟨lines, scene⟩ := lock.acknowledged h line
    obtain ⟨v', acts', after⟩ := lock.act scene (fun _ accessed => by cases accessed) acts
    exact ⟨v', .serving (h.suspended.trans boundary) ((h.serves lock).trans serves) line
      (lines ▸ present) acts', after⟩
  | fetching boundary awake idle =>
    obtain ⟨opcode, scene⟩ := lock.fetched h (within.opcode boundary awake idle)
    refine ⟨sceneFetched cpu' bus', ?_, scene _⟩
    rw [← opcode]
    exact .fetching (h.suspended.trans boundary) (h.halted.trans awake) ((h.serves lock).trans idle)

/-- Calls that set off end alike. -/
theorem step_of_setsOff (lock : Lockstep allowed S B) (sound : cpu.Sound) (sound' : cpu'.Sound)
    (h : Cpu.Abreast same S B cpu bus cpu' bus') (within : cpu.Within allowed bus)
    {r : Option Position} {v : Scene β} (off : SetsOff cpu bus r v) :
    Outcome.Abreast same S B (cpu.step bus) (cpu'.step bus') := by
  obtain ⟨v', off', abreast⟩ := lock.setsOff h within off
  obtain ⟨faultless, ahead⟩ := sound.towards off
  obtain ⟨w', ahead', last⟩ := lock.towards ahead abreast
  have ends := sound'.endsAt_of_setsOff off' ahead'
  exact .of_scene (ends.faultless.trans faultless.symm) ends.suspended (ends.scene ▸ last)

/-- Halted processors spend their cycles alike. -/
theorem step_of_idles (lock : Lockstep allowed S B) (h : Cpu.Abreast same S B cpu bus cpu' bus')
    (boundary : cpu.suspended = none) (halted : cpu.halted = true) :
    Outcome.Abreast same S B (cpu.step bus) (cpu'.step bus') := by
  obtain ⟨lines, -⟩ := h.poll lock
  obtain ⟨-, stack, core, address, out⟩ := h.chosen lock
  rw [Cpu.step_of_idles boundary halted,
    Cpu.step_of_idles (h.suspended.trans boundary) (h.halted.trans halted), lines]
  refine ⟨rfl, ?_, rfl, stack, ?_, ?_, out⟩
  · show wakeNotes cpu'.choosing _ = wakeNotes cpu.choosing _
    have ime : cpu'.choosing.ime = cpu.choosing.ime := congrArg Core.ime core
    have regs : cpu'.choosing.regs = cpu.choosing.regs := congrArg Core.regs core
    rw [wakeNotes, wakeNotes, ime, regs]
  · exact congrArg (fun c : Core => { c with halted := (Bus.poll bus).1.isEmpty }) core
  · exact fun told => address (told.imp id False.elim)

/-- Where one of two processors finds an interrupt gone, both do. -/
theorem step_of_vanishes (lock : Lockstep allowed S B) (h : Cpu.Abreast same S B cpu bus cpu' bus')
    (boundary : cpu.suspended = none) (serves : cpu.serves bus = true)
    (gone : (Bus.poll (Bus.poll bus).2).1.isEmpty = true) :
    Outcome.Abreast same S B (cpu.step bus) (cpu'.step bus') := by
  obtain ⟨suspended, stack, core, address, first⟩ := h.chosen lock
  obtain ⟨lines, out⟩ := lock.poll first
  have lines : (Bus.poll (Bus.poll bus').2).1 = (Bus.poll (Bus.poll bus).2).1 := lines
  rw [Cpu.step_of_vanishes boundary serves gone,
    Cpu.step_of_vanishes (h.suspended.trans boundary) ((h.serves lock).trans serves) (lines ▸ gone)]
  exact ⟨rfl, rfl, suspended, stack, congrArg Core.disarm core, address, out⟩

/-- Calls of processors abreast end alike. -/
theorem step (lock : Lockstep allowed S B) (sound : cpu.Sound) (sound' : cpu'.Sound)
    (h : Cpu.Abreast same S B cpu bus cpu' bus') (within : cpu.Within allowed bus) :
    Outcome.Abreast same S B (cpu.step bus) (cpu'.step bus') := by
  have moves {r : Option Position} {v : Scene β} (off : SetsOff cpu bus r v) :=
    lock.step_of_setsOff sound sound' h within off
  cases cpu.callKind bus with
  | inside s under =>
    obtain ⟨r, v, acts, -⟩ := Position.act_of_balanced (v := sceneInside cpu bus)
      (cpu.scratch.length_toList.symm ▸ (sound.within s under).1)
    exact moves (.inside s under acts)
  | idling boundary halted => exact lock.step_of_idles h boundary halted
  | serving boundary serves line present => exact moves (.serving boundary serves line present rfl)
  | vanishing boundary serves gone => exact lock.step_of_vanishes h boundary serves gone
  | fetching boundary awake idle => exact moves (.fetching boundary awake idle)

end Lockstep

end Boundary

/-! ## Runs with a host -/

/-- A run with a host, who may change the bus before each call.  Given is the last of `n` calls, whose
record and events are its own.  A fault does not end the run. -/
def Cpu.hosted (host : Nat → β → β) (cpu : Cpu) (bus : β) : Nat → Outcome (Recorded β)
  | 0 => .start cpu ⟨[], bus⟩
  | n + 1 => (hosted host cpu bus n).cpu.step ⟨[], host n (hosted host cpu bus n).bus.inner⟩

/-- A run counts its calls and leaves the model. -/
theorem Cpu.Sound.hosted {cpu : Cpu} (h : cpu.Sound) (host : Nat → β → β) (bus : β) (n : Nat) :
    (cpu.hosted host bus n).cpu.Sound ∧ (cpu.hosted host bus n).cpu.model = cpu.model
      ∧ (cpu.hosted host bus n).cpu.cycles = cpu.cycles + n := by
  induction n with
  | zero => exact ⟨h, rfl, rfl⟩
  | succ n ih =>
    obtain ⟨sound, model, cycles⟩ := ih
    obtain ⟨model', cycles'⟩ :=
      sound.step_frame (Recorded.mk [] (host n (cpu.hosted host bus n).bus.inner))
    exact ⟨sound.step _, model'.trans model, cycles'.trans (congrArg (· + 1) cycles)⟩

/-- Two recorded buses with the same record, related by `B` behind it. -/
def OnRecord (B : β → γ → Prop) (b : Recorded β) (b' : Recorded γ) : Prop :=
  b'.latest = b.latest ∧ B b.inner b'.inner

omit [Bus β] in
/-- Where the buses behind it are the same, all is. -/
theorem OnRecord.eq {b b' : Recorded β} (h : OnRecord (fun b b' => b' = b) b b') : b' = b := by
  obtain ⟨latest, inner⟩ := b
  obtain ⟨latest', inner'⟩ := b'
  obtain ⟨rfl, rfl⟩ := h
  rfl

/-- Two recorded buses whose records have grown by the same since `base` and `base'`, related by `B`
behind them. -/
def Bus.Since (base base' : List Access) (B : β → γ → Prop) (b : Recorded β) (b' : Recorded γ) :
    Prop :=
  ∃ later, b.latest = later ++ base ∧ b'.latest = later ++ base' ∧ B b.inner b'.inner

omit [Bus β] [Bus γ] in
/-- From empty records on they are the same. -/
theorem OnRecord.eq_since (B : β → γ → Prop) : OnRecord B = Bus.Since [] [] B := by
  funext b b'
  refine propext ⟨fun ⟨same, inner⟩ => ⟨b.latest, ?_, ?_, inner⟩, ?_⟩
  · exact (List.append_nil _).symm
  · exact same.trans (List.append_nil _).symm
  · rintro ⟨later, first, second, inner⟩
    exact ⟨second.trans first.symm, inner⟩

/-- The same can be put on record. -/
theorem Lockstep.since (lock : Lockstep allowed S B) (base base' : List Access) :
    Lockstep allowed S (Bus.Since base base' B) where
  polled := lock.polled
  shared := lock.shared
  set := lock.set
  stops := lock.stops
  read a s s' b b' ok speeds passes buses := by
    obtain ⟨later, first, second, inner⟩ := buses
    obtain ⟨answer, after⟩ := lock.read a s s' b.inner b'.inner ok speeds passes inner
    refine ⟨answer, .read a (Bus.read a b.inner).1 :: later, ?_, ?_, after⟩
    · exact congrArg (Access.read a (Bus.read a b.inner).1 :: ·) first
    · show Access.read a (Bus.read a b'.inner).1 :: b'.latest = _
      rw [answer, second]
      rfl
  write a value s s' b b' ok speeds passes buses := by
    obtain ⟨later, first, second, inner⟩ := buses
    exact ⟨.write a value :: later, congrArg _ first, congrArg _ second,
      lock.write a value s s' b.inner b'.inner ok speeds passes inner⟩

theorem Lockstep.recorded (lock : Lockstep allowed S B) : Lockstep allowed S (OnRecord B) :=
  OnRecord.eq_since B ▸ lock.since [] []

omit [Bus β] [Bus γ] in
/-- Whatever was done to the buses, if they are related again. -/
theorem Cpu.Abreast.exchange {δ ε : Type} {B' : δ → ε → Prop} {cpu cpu' : Cpu} {bus : β} {bus' : γ}
    {b : δ} {b' : ε} (h : Cpu.Abreast same S B cpu bus cpu' bus') (buses : B' b b') :
    Cpu.Abreast same S B' cpu b cpu' b' :=
  ⟨h.suspended, h.scene.stack, h.scene.core, h.scene.address, rfl, h.scene.out.speed, buses⟩

/-- Runs of processors abreast stay so, with hosts that keep their buses related. -/
theorem Lockstep.hosted (lock : Lockstep allowed S B) {host : Nat → β → β} {host' : Nat → γ → γ}
    (hosts : ∀ n b b', B b b' → B (host n b) (host' n b')) {cpu cpu' : Cpu} {bus : β} {bus' : γ}
    (sound : cpu.Sound) (sound' : cpu'.Sound) (h : Cpu.Abreast same S B cpu bus cpu' bus') {n : Nat}
    (within : ∀ k < n, (cpu.hosted host bus k).cpu.Within allowed
      (Recorded.mk [] (host k (cpu.hosted host bus k).bus.inner))) :
    Outcome.Abreast same S (OnRecord B) (cpu.hosted host bus n) (cpu'.hosted host' bus' n) := by
  induction n with
  | zero => exact ⟨rfl, rfl, h.exchange ⟨rfl, h.scene.out.bus⟩⟩
  | succ n ih =>
    -- the host gets the buses without their records and hands them back related
    have before := (ih fun k hk => within k (Nat.lt_succ_of_lt hk)).cpu
    have buses : OnRecord B _ _ := before.scene.out.bus
    refine lock.recorded.step (sound.hosted host bus n).1 (sound'.hosted host' bus' n).1
      (before.exchange ?_) (within n (Nat.lt_succ_self n))
    exact ⟨rfl, hosts n _ _ buses.2⟩

/-! ## Processors that cannot be told apart -/

/-- Two processors that differ at most in the leftovers on their scratch stacks. -/
structure Cpu.Indistinct (cpu cpu' : Cpu) : Prop where
  same : cpu' = { cpu with scratch := cpu'.scratch }
  stack : cpu'.scratch.toList = cpu.scratch.toList

namespace Cpu.Indistinct

variable {cpu cpu' : Cpu}

theorem refl (cpu : Cpu) : cpu.Indistinct cpu := ⟨rfl, rfl⟩

/-- The invariant of runs does not look at leftovers. -/
theorem sound (h : cpu.Indistinct cpu') (sound : cpu.Sound) : cpu'.Sound := by
  have suspended : cpu'.suspended = cpu.suspended := by rw [h.same]
  have depth : cpu'.scratch.depth = cpu.scratch.depth := by
    rw [← ScratchStack.length_toList, h.stack, ScratchStack.length_toList]
  refine ⟨fun boundary => ?_, fun s under => ?_⟩
  · exact depth.trans (sound.empty (suspended ▸ boundary))
  · exact depth ▸ sound.within s (suspended ▸ under)

omit [Bus β] [Bus γ] in
theorem abreast (h : cpu.Indistinct cpu') (speeds : S cpu.speed cpu.speed) {bus : β} {bus' : γ}
    (buses : B bus bus') : Cpu.Abreast True S B cpu bus cpu' bus' := by
  have suspended : cpu'.suspended = cpu.suspended := by rw [h.same]
  have speed : cpu'.speed = cpu.speed := by rw [h.same]
  have core : cpu'.core = cpu.core := by
    rw [h.same]
    rfl
  refine ⟨suspended, h.stack, ?_, fun _ => congrArg Core.opcodeAddress core, rfl, ?_, buses⟩
  · show cpu'.core = cpu.core.addressed cpu'.core.opcodeAddress
    rw [core]
    rfl
  · show S cpu.speed cpu'.speed
    rw [speed]
    exact speeds

omit [Bus β] [Bus γ] in
/-- What is abreast in all respects and has the same speed switch and frame cannot be told apart. -/
theorem of_abreast {bus : β} {bus' : γ} (h : Cpu.Abreast True S B cpu bus cpu' bus')
    (speed : cpu'.speed = cpu.speed) (model : cpu'.model = cpu.model)
    (cycles : cpu'.cycles = cpu.cycles) : cpu.Indistinct cpu' := by
  have core : cpu'.core = cpu.core := h.scene.core_eq (.inl trivial)
  have suspended := h.suspended
  refine ⟨?_, h.scene.stack⟩
  -- field by field, and only the scratch stack is left to differ
  obtain ⟨regs, ime, pending, delay, halted, haltBug, _, _, _, _, address, _⟩ := cpu
  obtain ⟨regs', ime', pending', delay', halted', haltBug', _, _, _, _, address', _⟩ := cpu'
  cases core
  cases speed
  cases model
  cases cycles
  cases suspended
  rfl

end Cpu.Indistinct

/-- If all accesses answer alike, processors that cannot be told apart stay so in every run. -/
theorem Lockstep.indistinct (lock : Lockstep allowed S B) (everywhere : ∀ a, allowed a)
    {host : Nat → β → β} {host' : Nat → γ → γ} (hosts : ∀ n b b', B b b' → B (host n b) (host' n b'))
    {cpu cpu' : Cpu} (sound : cpu.Sound) (h : cpu.Indistinct cpu') (speeds : S cpu.speed cpu.speed)
    {bus : β} {bus' : γ} (buses : B bus bus') (n : Nat) :
    Outcome.Abreast True S (OnRecord B) (cpu.hosted host bus n) (cpu'.hosted host' bus' n)
      ∧ (cpu.hosted host bus n).cpu.Indistinct (cpu'.hosted host' bus' n).cpu := by
  have sound' := h.sound sound
  have ends := lock.hosted hosts sound sound' (h.abreast speeds buses) (n := n) <| by
    intro k _
    exact ⟨fun d _ => everywhere d.address, fun _ _ _ => everywhere _⟩
  obtain ⟨-, model, cycles⟩ := sound.hosted host bus n
  obtain ⟨-, model', cycles'⟩ := sound'.hosted host' bus' n
  have frame : cpu'.model = cpu.model ∧ cpu'.cycles = cpu.cycles := by
    rw [h.same]
    exact ⟨rfl, rfl⟩
  refine ⟨ends, .of_abreast ends.cpu (lock.shared (everywhere _) _ _ ends.cpu.scene.out.speed) ?_ ?_⟩
  · rw [model', model, frame.1]
  · rw [cycles', cycles, frame.2]

end Sm83
