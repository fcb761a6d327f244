import Sm83.Proofs.Run.Safety

/-!
# What a call shows

A call does one of five things: it goes on with what is under way, it idles, it starts to serve an
interrupt, it finds that interrupt gone, or it fetches an opcode.  Two of these make no moves, and can
be said in full.  In the other three something is first settled on, and moves in no time follow: what
such moves keep of a position and its scene is kept by the call.

* `CallKind` — which of the five a call does.
* `Cpu.step_of_idles`, `Cpu.step_of_vanishes` — all about the two that make no moves.
* `Steady` — what moves in no time keep.
* `Cpu.Sound.inside_keeps`, `Cpu.Sound.serving_keeps`, `Cpu.Sound.fetching_keeps` — the other three
  keep what is steady, from the scene on that they settle on.
* `Towards` — to be on the way to one scene, which is steady: so a call is exact where its moves are
  known, `Settles`.
-/

namespace Sm83

open Machine

section Calls

variable {β : Type} [Bus β]

/-! ## Kinds of calls -/

/-- What a call does. -/
inductive CallKind (cpu : Cpu) (bus : β) : Prop
  /-- It goes on with what is under way. -/
  | inside (s : Suspension) (under : cpu.suspended = some s)
  /-- It idles. -/
  | idling (boundary : cpu.suspended = none) (halted : cpu.halted = true)
  /-- It starts to serve an interrupt. -/
  | serving (boundary : cpu.suspended = none) (serves : cpu.serves bus = true) (line : InterruptSet)
    (present : (Bus.poll (Bus.poll bus).2).1.first? = some line)
  /-- It finds the interrupt gone that it was to serve. -/
  | vanishing (boundary : cpu.suspended = none) (serves : cpu.serves bus = true)
    (gone : (Bus.poll (Bus.poll bus).2).1.isEmpty = true)
  /-- It fetches an opcode. -/
  | fetching (boundary : cpu.suspended = none) (awake : cpu.halted = false)
    (idle : cpu.serves bus = false)

/-- It does nothing else. -/
theorem Cpu.callKind (cpu : Cpu) (bus : β) : CallKind cpu bus := by
  cases under : cpu.suspended with
  | some s => exact .inside s under
  | none =>
    cases halted : cpu.halted with
    | true => exact .idling under halted
    | false =>
      cases serves : cpu.serves bus with
      | false => exact .fetching under halted serves
      | true =>
        cases present : (Bus.poll (Bus.poll bus).2).1.first? with
        | some line => exact .serving under serves line present
        | none => exact .vanishing under serves ((InterruptSet.first?_eq_none_iff _).1 present)

/-! ## Calls move by move -/

section Leads

variable {m : Machine β} {R : Position → Machine β → Prop} {Q : Machine β → Prop}
  {E : Fault → Machine β → Prop}

/-- What holds after the machine cycle of a suspended instruction and is kept by moves in no time,
holds where the call ends. -/
theorem cycle_leads_of_suspended {s : Suspension} (under : m.cpu.suspended = some s)
    (micro : s.position.OnMicrocode)
    (tick : Leads (Next R Q) E (s.position.advance m.begun))
    (move : ∀ p m, R p m → p.waiting = false → Leads (Next R Q) E (p.advance m)) :
    Leads (fun _ => Left (fun p m => R p m ∧ p.waiting = true) Q) E (cycle m) := by
  let P (k : Nat) (p : Position) (m' : Machine β) : Prop :=
    if k = 0 then R p m' else p = s.position ∧ m' = m.begun
  refine cycle_leads (P := P) ?_ ?_ ?_ ?_
  · intro k p m' h instant
    cases k with
    | zero => exact move p m' h instant
    | succ k =>
      obtain ⟨rfl, -⟩ := h
      cases instant
  · rintro p m' ⟨rfl, rfl⟩ -
    exact tick
  · rintro p m' ⟨rfl, rfl⟩
    exact micro
  · rw [enter_of_suspended under]
    exact ⟨rfl, rfl⟩

/-- Where the acknowledge of an interrupt leads. -/
def acknowledgedPosition : Position := ⟨interruptMicroprogram.steps.tail, .exit .retire⟩

/-- The call that starts to serve an interrupt passes the acknowledge, then the first machine cycle of
the dispatch, and then moves in no time. -/
theorem cycle_leads_of_serves {S : Machine β → Prop} (boundary : m.cpu.suspended = none)
    (serves : m.cpu.serves m.bus = true)
    (acknowledges : Leads (fun r m' => r = some acknowledgedPosition ∧ S m') E
      (interruptMicroprogram.position.advance ⟨m.cpu.choosing, (Bus.poll m.bus).2, m.events⟩))
    (tick : ∀ m', S m' → Leads (Next R Q) E (acknowledgedPosition.advance m'))
    (move : ∀ p m, R p m → p.waiting = false → Leads (Next R Q) E (p.advance m)) :
    Leads (fun _ => Left (fun p m => R p m ∧ p.waiting = true) Q) E (cycle m) := by
  let m₁ : Machine β := ⟨m.cpu.choosing, (Bus.poll m.bus).2, m.events⟩
  let P (k : Nat) (p : Position) (m' : Machine β) : Prop :=
    if k = 0 then R p m'
    else p = interruptMicroprogram.position ∧ m' = m₁ ∨ p = acknowledgedPosition ∧ S m'
  refine cycle_leads (P := P) ?_ ?_ ?_ ?_
  · intro k p m' h instant
    cases k with
    | zero => exact move p m' h instant
    | succ k =>
      rcases h with ⟨rfl, rfl⟩ | ⟨rfl, -⟩
      · refine acknowledges.imp ?_
        rintro r m' - ⟨rfl, h⟩
        exact .inr ⟨rfl, h⟩
      · cases instant
  · rintro p m' (⟨rfl, -⟩ | ⟨rfl, h⟩) waits
    · cases waits
    · exact tick m' h
  · rintro p m' (⟨rfl, -⟩ | ⟨rfl, -⟩)
    · exact .of_isRow .interrupt
    · exact ⟨_, .interrupt, List.suffix_cons _ _⟩
  · rw [enter_of_serves boundary serves]
    exact .inl ⟨rfl, rfl⟩

end Leads

/-! ## Keeping what is steady -/

/-- What is shown when a call has ended. -/
def Outcome.scene (o : Outcome β) : Scene β := Machine.scene [] ⟨o.cpu, o.bus, o.events⟩

/-- Moves in no time keep it. -/
def Steady (K : Option Position → Scene β → Prop) : Prop :=
  ∀ p v r w, K (some p) v → p.waiting = false → p.act v = some (r, w) → K r w

/-- A call has not failed, has counted its cycle, and has left where `K` holds. -/
structure Arrives (K : Option Position → Scene β → Prop) (cpu : Cpu) (o : Outcome β) : Prop where
  faultless : o.fault = none
  shown : K (o.cpu.suspended.map Suspension.position) o.scene
  model : o.cpu.model = cpu.model
  cycles : o.cpu.cycles = cpu.cycles + 1

/-- The position is one where nothing goes wrong and `K` holds. -/
structure Carries (K : Option Position → Scene β → Prop) (cpu : Cpu) (p : Position) (m : Machine β) :
    Prop where
  micro : p.OnMicrocode
  balanced : p.Balanced m.cpu.scratch.depth
  holds : K (some p) (m.scene [])
  frame : m.cpu.frame = cpu.choosing.frame

/-- The instruction is over and `K` holds. -/
def Over (K : Option Position → Scene β → Prop) (cpu : Cpu) (m : Machine β) : Prop :=
  K none (m.scene []) ∧ m.cpu.frame = cpu.choosing.frame

variable {K K' : Option Position → Scene β → Prop} {cpu : Cpu} {bus : β}

omit [Bus β] in
/-- When the choice is made, the cycle has been counted. -/
theorem Cpu.choosing_frame (cpu : Cpu) : cpu.choosing.frame = ⟨cpu.model, none, cpu.cycles + 1⟩ := by
  rw [choosing, commitIme_eq]
  rfl

theorem Carries.advance {p : Position} {m : Machine β} (h : Carries K cpu p m)
    (next : ∀ r w, p.act (m.scene []) = some (r, w) → K' r w) :
    Leads (Next (Carries K' cpu) (Over K' cpu)) (fun _ _ => False) (p.advance m) := by
  obtain ⟨r, m', e, acts, balanced, kept⟩ := Position.advance_of_balanced h.balanced
  have holds := next r _ acts
  rw [e]
  match r, balanced, holds with
  | none, _, holds => exact ⟨holds, kept.trans h.frame⟩
  | some q, balanced, holds =>
    exact ⟨h.micro.successor (Position.successor_of_advance e), balanced, holds, kept.trans h.frame⟩

/-- A move in no time keeps what is steady. -/
theorem Carries.settle (steady : Steady K) {p : Position} {m : Machine β} (h : Carries K cpu p m)
    (instant : p.waiting = false) :
    Leads (Next (Carries K cpu) (Over K cpu)) (fun _ _ => False) (p.advance m) :=
  h.advance fun r w acts => steady p _ r w h.holds instant acts

theorem arrives_of_left
    (h : Leads (fun _ => Left (fun p m => Carries K cpu p m ∧ p.waiting = true) (Over K cpu))
      (fun _ _ => False) (cycle ⟨cpu, bus, []⟩)) : Arrives K cpu (cpu.step bus) := by
  have counted {m : Machine β} (frame : m.cpu.frame = cpu.choosing.frame) :
      m.cpu.model = cpu.model ∧ m.cpu.cycles = cpu.cycles + 1 := by
    rw [cpu.choosing_frame] at frame
    exact ⟨congrArg Frame.model frame, congrArg Frame.cycles frame⟩
  refine Cpu.step_of_left h ?_ ?_ fun _ _ => False.elim
  · rintro s m ⟨carries, -⟩
    obtain ⟨model, cycles⟩ := counted carries.frame
    exact ⟨rfl, carries.holds, model, cycles⟩
  · rintro m ⟨holds, frame⟩
    obtain ⟨model, cycles⟩ := counted frame
    exact ⟨rfl, holds, model, cycles⟩

/-! ## Inside an instruction -/

/-- What a call inside an instruction finds. -/
def sceneInside (cpu : Cpu) (bus : β) : Scene β :=
  ⟨cpu.scratch.toList, cpu.core, cpu.speed, bus, []⟩

/-- A call inside an instruction keeps what holds after its machine cycle. -/
theorem Cpu.Sound.inside_keeps (h : cpu.Sound) {s : Suspension} (under : cpu.suspended = some s)
    (steady : Steady K)
    (tick : ∀ r w, s.position.act (sceneInside cpu bus) = some (r, w) → K r w) :
    Arrives K cpu (cpu.step bus) := by
  obtain ⟨balanced, micro⟩ := h.within s under
  have begun : Carries (fun _ v => v = sceneInside cpu bus) cpu s.position
      (Machine.begun ⟨cpu, bus, []⟩) := ⟨micro, balanced, rfl, cpu.choosing_frame.symm⟩
  exact arrives_of_left <| cycle_leads_of_suspended under micro (begun.advance tick)
    fun p m carries => carries.settle steady

/-! ## Halted -/

/-- A halted processor counts the cycle, hands over its gate, polls, and wakes if it finds an
interrupt. -/
theorem Cpu.step_of_idles {cpu : Cpu} (boundary : cpu.suspended = none)
    (halted : cpu.halted = true) (bus : β) :
    cpu.step bus = ⟨{ cpu.choosing with suspended := none, halted := (Bus.poll bus).1.isEmpty },
      (Bus.poll bus).2, wakeNotes cpu.choosing (Bus.poll bus).1, none⟩ := by
  let m : Machine β := ⟨{ cpu.choosing with halted := (Bus.poll bus).1.isEmpty }, (Bus.poll bus).2,
    wakeNotes cpu.choosing (Bus.poll bus).1⟩
  -- no position is entered, so there is nothing to say about positions
  have led : Leads (fun _ => Left (fun _ _ => False) (· = m)) (fun _ _ => False)
      (Machine.cycle ⟨cpu, bus, []⟩) := by
    have nowhere : Leads (Next (fun _ _ => False) (· = m)) (fun _ _ => False)
        (Machine.enter ⟨cpu, bus, []⟩) := by
      rw [enter_of_halted boundary halted]
      rfl
    refine (cycle_leads (P := fun _ _ _ => False) ?_ ?_ ?_ nowhere).imp ?_
    · exact fun _ _ _ => False.elim
    · exact fun _ _ => False.elim
    · exact fun _ _ => False.elim
    · exact fun _ _ _ left => left.imp fun _ _ h => h.1
  refine Cpu.step_of_left (Φ := (· = _)) led (fun _ _ => False.elim) ?_ (fun _ _ => False.elim)
  rintro _ rfl
  rfl

/-! ## Serving an interrupt -/

/-- The processor that acknowledges an interrupt shows its scene with an empty scratch stack. -/
theorem Cpu.Sound.scene_choosing {cpu : Cpu} (h : cpu.Sound) (boundary : cpu.suspended = none)
    (bus : β) :
    Machine.scene [] ⟨cpu.choosing, (Bus.poll bus).2, []⟩
      = ⟨[], cpu.choosing.core, cpu.speed, (Bus.poll bus).2, []⟩ := by
  rw [Machine.scene, Cpu.choosing_scratch, h.toList_eq_nil boundary, Cpu.choosing_speed]
  rfl

/-- What is shown when an interrupt was acknowledged: the gate is closed, the program counter has been put
back if the HALT bug was armed, and the address of the handler is on the scratch stack. -/
def sceneAcknowledged (cpu : Cpu) (bus : β) (line : InterruptSet) : Scene β :=
  let bytes := Bus.interruptBytes (Bus.poll bus).2
  let c := cpu.choosing.core.disarm
  ⟨onTop line.vector [], c, cpu.speed,
    Bus.write requestAddress (bytes.2.1 &&& ~~~line.bits) bytes.2.2,
    [.dispatched line c.regs.pc c.regs.sp bytes.2.1 bytes.1]⟩

/-- The acknowledge of a line that is there leads to that scene. -/
theorem Cpu.Sound.acknowledges {cpu : Cpu} {bus : β} {line : InterruptSet} (h : cpu.Sound)
    (boundary : cpu.suspended = none)
    (present : (Bus.poll (Bus.poll bus).2).1.first? = some line) :
    ∃ m : Machine β, interruptMicroprogram.position.advance ⟨cpu.choosing, (Bus.poll bus).2, []⟩
        = .ok (some acknowledgedPosition) m
      ∧ m.scene [] = sceneAcknowledged cpu bus line ∧ m.cpu.frame = cpu.choosing.frame := by
  have acts : interruptMicroprogram.position.act
      ⟨[], cpu.choosing.core, cpu.speed, (Bus.poll bus).2, []⟩
      = some (some acknowledgedPosition, sceneAcknowledged cpu bus line) := by
    simp only [Bus.poll] at present
    rw [interrupt_position, Position.act, MicroStep.act, Control.act]
    simp only [Bus.poll, present]
    rfl
  exact Position.advance_performs acts (Nat.le_of_ble_eq_true rfl) [] _ (h.scene_choosing boundary bus)

/-- A call that starts to serve an interrupt keeps what holds after the first machine cycle of the
dispatch. -/
theorem Cpu.Sound.serving_keeps (h : cpu.Sound) (boundary : cpu.suspended = none)
    (serves : cpu.serves bus = true) {line : InterruptSet}
    (present : (Bus.poll (Bus.poll bus).2).1.first? = some line) (steady : Steady K)
    (tick : ∀ r w, acknowledgedPosition.act (sceneAcknowledged cpu bus line) = some (r, w) → K r w) :
    Arrives K cpu (cpu.step bus) := by
  obtain ⟨m', moves, shown, kept⟩ := h.acknowledges boundary present
  have depth : m'.cpu.scratch.depth = 2 := Machine.depth_of_scene shown
  let S (m : Machine β) : Prop :=
    Carries (fun _ v => v = sceneAcknowledged cpu bus line) cpu acknowledgedPosition m
  have acknowledged : S m' :=
    ⟨⟨_, .interrupt, List.suffix_cons _ _⟩, depth ▸ balanced_interrupt, shown, kept⟩
  refine arrives_of_left <| cycle_leads_of_serves (m := ⟨cpu, bus, []⟩) (S := S) boundary serves
    (by rw [moves]; exact ⟨rfl, acknowledged⟩) ?_ fun p m carries => carries.settle steady
  exact fun m carries => carries.advance fun r w acts => tick r w (carries.holds ▸ acts)

/-- Where the interrupt is gone when it is acknowledged, the call fails after two polls, with the gate
closed. -/
theorem Cpu.step_of_vanishes {cpu : Cpu} {bus : β} (boundary : cpu.suspended = none)
    (serves : cpu.serves bus = true)
    (gone : (Bus.poll (Bus.poll bus).2).1.isEmpty = true) :
    cpu.step bus
      = ⟨disarm cpu.choosing, (Bus.poll (Bus.poll bus).2).2, [], some .noPendingInterrupt⟩ := by
  let m : Machine β := ⟨cpu, bus, []⟩
  have fails := advance_interrupt_of_isEmpty (m := ⟨cpu.choosing, (Bus.poll bus).2, []⟩) gone
  have led : Leads (fun _ => Left (fun _ _ => False) fun _ => False)
      (fun fault m => fault = .noPendingInterrupt
        ∧ m = ⟨disarm cpu.choosing, (Bus.poll (Bus.poll bus).2).2, []⟩) (Machine.cycle m) := by
    refine (cycle_leads_of_serves (R := fun _ _ => False) (Q := fun _ => False)
      (S := fun _ => False) boundary serves ?_ (fun _ => False.elim) fun _ _ => False.elim).imp ?_
    · rw [fails]
      exact ⟨rfl, rfl⟩
    · exact fun _ _ _ left => left.imp fun _ _ h => h.1
  refine Cpu.step_of_left (Φ := fun o => o = ⟨_, _, _, _⟩) led (fun _ _ => False.elim)
    (fun _ => False.elim) ?_
  rintro fault m ⟨rfl, rfl⟩
  rfl

/-! ## Fetching -/

/-- A call that fetches an opcode keeps what holds where the instruction starts. -/
theorem Cpu.Sound.fetching_keeps (h : cpu.Sound) (boundary : cpu.suspended = none)
    (awake : cpu.halted = false) (idle : cpu.serves bus = false) (steady : Steady K)
    (starts : K (some (Instruction.ofOpcode (opcodeFetched cpu bus)).microprogram.position)
      (sceneFetched cpu bus)) : Arrives K cpu (cpu.step bus) := by
  refine arrives_of_left (fetch_leads boundary (h.toList_eq_nil boundary) awake idle ?_)
  intro m shown kept
  have depth : m.cpu.scratch.depth = 0 := Machine.depth_of_scene shown
  refine settle_leads (fun p m carries => carries.settle steady) ⟨.of_isRow (.instruction _),
    depth ▸ balanced_instruction _, ?_, kept⟩
  rw [shown]
  exact starts

/-! ## All calls -/

/-- Every call counts its cycle and leaves the model. -/
theorem Cpu.Sound.step_frame (h : cpu.Sound) (bus : β) :
    (cpu.step bus).cpu.model = cpu.model ∧ (cpu.step bus).cpu.cycles = cpu.cycles + 1 := by
  have steady : Steady (β := β) fun _ _ => True := fun _ _ _ _ _ _ _ => trivial
  have arrives (a : Arrives (fun _ _ => True) cpu (cpu.step bus)) := And.intro a.model a.cycles
  rcases cpu.callKind bus with ⟨s, under⟩ | ⟨boundary, halted⟩ | ⟨boundary, serves, line, present⟩
    | ⟨boundary, serves, gone⟩ | ⟨boundary, awake, idle⟩
  · exact arrives (h.inside_keeps under steady fun _ _ _ => trivial)
  · rw [Cpu.step_of_idles boundary halted, choosing, commitIme_eq]
    exact ⟨rfl, rfl⟩
  · exact arrives (h.serving_keeps boundary serves present steady fun _ _ _ => trivial)
  · rw [Cpu.step_of_vanishes boundary serves gone, choosing, commitIme_eq]
    exact ⟨rfl, rfl⟩
  · exact arrives (h.fetching_keeps boundary awake idle steady trivial)

/-! ## Exact calls -/

/-- Moves in no time from the position and the scene end in front of the machine cycle of `t`, or
where there is none with the instruction, in the scene `w`. -/
inductive Settles : Position → Scene β → Option Suspension → Scene β → Prop
  | waits (s : Suspension) (v : Scene β) : Settles s.position v (some s) v
  | ends {p : Position} {v w : Scene β} (instant : p.waiting = false)
    (acts : p.act v = some (none, w)) : Settles p v none w
  | moves {p q : Position} {v u w : Scene β} {t : Option Suspension} (instant : p.waiting = false)
    (acts : p.act v = some (some q, u)) (rest : Settles q u t w) : Settles p v t w

/-- On the way to `t` and `w`. -/
def Towards (t : Option Suspension) (w : Scene β) : Option Position → Scene β → Prop
  | some p, v => Settles p v t w
  | none, v => t = none ∧ v = w

theorem Towards.steady (t : Option Suspension) (w : Scene β) : Steady (Towards t w) := by
  intro p v r w' h instant acts
  cases h with
  | waits s => cases instant
  | ends _ acts' =>
    cases acts.symm.trans acts'
    exact ⟨rfl, rfl⟩
  | moves _ acts' rest =>
    cases acts.symm.trans acts'
    exact rest

omit [Bus β] in
/-- A suspended instruction can be told from where it stands. -/
theorem Suspension.position_inj {s s' : Suspension} (h : s.position = s'.position) : s = s' :=
  Option.some.inj (congrArg Position.suspension? h)

/-- Where a call was on the way to, it is when it ends. -/
theorem Towards.arrived {t : Option Suspension} {w : Scene β} {r : Option Suspension} {v : Scene β}
    (h : Towards t w (r.map Suspension.position) v) : r = t ∧ v = w := by
  match r, h with
  | none, h => exact ⟨h.1.symm, h.2⟩
  | some s, h =>
    change Settles s.position v t w at h
    generalize standing : s.position = p at h
    cases h with
    | waits s' => exact ⟨congrArg some (Suspension.position_inj standing), rfl⟩
    | ends instant _ | moves instant _ _ =>
      rw [← standing] at instant
      cases instant

/-- How a call ended exactly. -/
structure EndsAt (t : Option Suspension) (w : Scene β) (o : Outcome β) : Prop where
  faultless : o.fault = none
  suspended : o.cpu.suspended = t
  scene : o.scene = w

theorem Arrives.endsAt {t : Option Suspension} {w : Scene β} {o : Outcome β}
    (h : Arrives (Towards t w) cpu o) : EndsAt t w o :=
  ⟨h.faultless, h.shown.arrived.1, h.shown.arrived.2⟩

/-- Transfers lead to the machine cycle behind them. -/
theorem Settles.row {ts : List Transfer} {c : MachineCycle} {rest : List MicroStep} {exit : Exit}
    {v w : Scene β} (acts : actAll (Microcode.internal ts) v = some w) :
    Settles ⟨Microcode.internal ts ++ .cycle c :: rest, .exit exit⟩ v (some ⟨c, rest, exit⟩) w := by
  induction ts generalizing v with
  | nil =>
    cases acts
    exact .waits ⟨c, rest, exit⟩ _
  | cons t ts ih =>
    obtain ⟨u, first, later⟩ := Option.bind_eq_some_iff.1 acts
    exact .moves rfl (congrArg (Option.map _) first) (ih later)

/-- Or, where there is none, to the end of the instruction. -/
theorem Settles.lastRow {ts : List Transfer} {v w : Scene β}
    (acts : actAll (Microcode.internal ts) v = some w) :
    Settles ⟨Microcode.internal ts, .exit .retire⟩ v none w := by
  induction ts generalizing v with
  | nil =>
    cases acts
    exact .ends rfl rfl
  | cons t ts ih =>
    obtain ⟨u, first, later⟩ := Option.bind_eq_some_iff.1 acts
    exact .moves rfl (congrArg (Option.map _) first) (ih later)

/-- A call inside an instruction carries out a machine cycle and goes on from there. -/
theorem Cpu.Sound.inside_endsAt (h : cpu.Sound) {c : MachineCycle} {rest : List MicroStep}
    {exit : Exit} (under : cpu.suspended = some ⟨c, rest, exit⟩) {u w : Scene β}
    {t : Option Suspension} (tick : MicroStep.act (.cycle c) (sceneInside cpu bus) = some u)
    (settles : Settles ⟨rest, .exit exit⟩ u t w) : EndsAt t w (cpu.step bus) := by
  refine (h.inside_keeps under (Towards.steady t w) fun r w' acts => ?_).endsAt
  cases (congrArg (Option.map _) tick).symm.trans acts
  exact settles

/-- A call that starts to serve an interrupt goes on to the second machine cycle of the dispatch. -/
theorem Cpu.Sound.serving_endsAt (h : cpu.Sound) (boundary : cpu.suspended = none)
    (serves : cpu.serves bus = true) {line : InterruptSet}
    (present : (Bus.poll (Bus.poll bus).2).1.first? = some line) {w : Scene β}
    {t : Option Suspension}
    (settles : Settles ⟨acknowledgedPosition.steps.tail, .exit .retire⟩
      (sceneAcknowledged cpu bus line) t w) : EndsAt t w (cpu.step bus) := by
  refine (h.serving_keeps boundary serves present (Towards.steady t w) fun r w' acts => ?_).endsAt
  cases acts
  exact settles

/-- A call that fetches an instruction of one step in no time carries it out. -/
theorem Cpu.Sound.fetching_endsAt (h : cpu.Sound) (boundary : cpu.suspended = none)
    (awake : cpu.halted = false) (idle : cpu.serves bus = false) {s : MicroStep} {w : Scene β}
    (single : (Instruction.ofOpcode (opcodeFetched cpu bus)).microprogram = .straight [s])
    (instant : (Position.mk [s] (.exit .retire)).waiting = false)
    (acts : s.act (sceneFetched cpu bus) = some w) :
    EndsAt none w (cpu.step bus) := by
  have settles : Settles ⟨[s], .exit .retire⟩ (sceneFetched cpu bus) none w :=
    .moves instant (congrArg (Option.map _) acts) (.ends rfl rfl)
  refine (h.fetching_keeps boundary awake idle (Towards.steady none w) ?_).endsAt
  rw [single]
  exact settles

end Calls

end Sm83
