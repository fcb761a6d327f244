import Mathlib.Data.List.Induction
import Sm83.Proofs.Run.Timing
import Sm83.Proofs.Run.Upshot

/-!
# What a history enables

Enabling interrupts takes its time, for which the processor has three bits that hand over to each
other at instruction boundaries, idle ones included.  Seen from outside they remember one thing of the
past: whether there was a `RETI`, or an `EI` that is not the latest event, with no `DI` and no
interrupt after it.

* `Cpu.Sound.begins_iff` — which call begins an instruction, for an event to be read as that.
* `History` — runs from a reset on, with the milestones that they passed: instructions begun and
  interrupts served.
* `Enabled` — that interrupts are enabled after such a past, said without the three bits.
* `Recalls` — the invariant: what the bits, with what the instruction under way will still do to them,
  have to do with the past.  An `EI` in force is distinguished from one that is the latest event, so
  `Armed` stands beside `Enabled`.
* `History.decides` — at every boundary, interrupts are enabled if the past says so, and one is served
  if besides a line is requested and enabled.
-/

namespace Sm83

open Machine

/-! ## Pasts -/

namespace Event

/-- Whether an event begins an instruction with this opcode. -/
def begins (opcode : UInt8) : Event → Bool
  | .decoded .base b _ => b == opcode
  | _ => false

/-- Whether an event serves an interrupt. -/
def isDispatch : Event → Bool
  | .dispatched _ _ _ _ _ => true
  | _ => false

/-- A `RETI` begins. -/
def isReti : Event → Bool := begins 0xD9

/-- An `EI` begins. -/
def isEi : Event → Bool := begins 0xFB

/-- A `DI` begins, or an interrupt is served. -/
def disables (e : Event) : Bool := e.begins 0xF3 || e.isDispatch

/-- An instruction other than `DI` disables nothing. -/
theorem disables_of_begins {e : Event} {opcode : UInt8} (h : e.begins opcode = true)
    (ne : opcode ≠ 0xF3) : e.disables = false := by
  match e, h with
  | .decoded .base b _, h =>
    obtain rfl : b = opcode := eq_of_beq h
    show (b == 0xF3 || false) = false
    rw [beq_eq_false_iff_ne.2 ne, Bool.or_false]

/-- An `EI` is no `RETI`. -/
theorem isReti_of_isEi {e : Event} (h : e.isEi = true) : e.isReti = false := by
  match e, h with
  | .decoded .base opcode _, h =>
    obtain rfl : opcode = 0xFB := eq_of_beq h
    rfl

/-- Serving an interrupt is a milestone. -/
theorem isMilestone_of_isDispatch {e : Event} (h : e.isDispatch = true) : e.isMilestone = true := by
  cases e with
  | dispatched => rfl
  | _ => cases h

/-- To see whether an instruction began, the milestones are enough. -/
theorem any_begins (opcode : UInt8) (events : List Event) :
    events.any (begins opcode) = (milestones events).any (begins opcode) := by
  rw [milestones, List.any_filter]
  refine congrArg (List.any events) (funext fun e => ?_)
  cases e with
  | decoded table => cases table <;> rfl
  | _ => rfl

end Event

/-- A call begins an instruction if it fetches its opcode, and in no other way. -/
theorem Cpu.Sound.begins_iff {β : Type} [Bus β] {cpu : Cpu} (h : cpu.Sound) (bus : β)
    (opcode : UInt8) : (cpu.step bus).events.any (Event.begins opcode) = true
      ↔ cpu.suspended = none ∧ cpu.halted = false ∧ cpu.serves bus = false
        ∧ opcodeFetched cpu bus = opcode := by
  have nothing (passed : milestones (cpu.step bus).events = []) :
      ¬ (cpu.step bus).events.any (Event.begins opcode) = true := by
    rw [Event.any_begins, passed]
    exact Bool.false_ne_true
  rcases cpu.callKind bus with ⟨s, under⟩ | ⟨boundary, halted⟩ | ⟨boundary, serves, line, present⟩
    | ⟨boundary, serves, gone⟩ | ⟨boundary, awake, idle⟩
  · refine iff_of_false (nothing (congrArg Upshot.milestones (h.step_inside under bus).2)) ?_
    exact fun fetches => Option.some_ne_none s (under.symm.trans fetches.1)
  · refine iff_of_false (nothing (congrArg Upshot.milestones (step_idling boundary halted bus).2)) ?_
    exact fun fetches => Bool.true_eq_false.mp (halted.symm.trans fetches.2.1)
  · have passed : milestones (cpu.step bus).events = [_] :=
      congrArg Upshot.milestones (h.step_serving boundary serves present).2
    refine iff_of_false ?_ fun fetches => Bool.true_eq_false.mp (serves.symm.trans fetches.2.2.1)
    rw [Event.any_begins, passed]
    exact Bool.false_ne_true
  · refine iff_of_false (nothing ?_) fun fetches =>
      Bool.true_eq_false.mp (serves.symm.trans fetches.2.2.1)
    rw [step_of_vanishes boundary serves gone]
    rfl
  · have passed : milestones (cpu.step bus).events = [eventFetched cpu bus] :=
      (h.step_begins boundary awake idle).2.2.1
    rw [Event.any_begins, passed, List.any_cons, List.any_nil, Bool.or_false]
    exact beq_iff_eq.trans ⟨fun fetched => ⟨boundary, awake, idle, fetched⟩, fun h => h.2.2.2⟩

section Lasts

variable {α : Type}

/-- In the past something happened that starts something, given what came later, and nothing later
ended it. -/
def Lasts (starts : α → List α → Prop) (ends : α → Bool) (past : List α) : Prop :=
  ∃ before e after, past = before ++ e :: after ∧ starts e after ∧ ∀ x ∈ after, ends x = false

theorem Lasts.imp {starts starts' : α → List α → Prop} {ends : α → Bool} {past : List α}
    (weaker : ∀ e after, starts e after → starts' e after) (h : Lasts starts ends past) :
    Lasts starts' ends past := by
  obtain ⟨before, e, after, split, start, still⟩ := h
  exact ⟨before, e, after, split, weaker e after start, still⟩

/-- Nothing lasts from before the beginning. -/
theorem not_lasts_nil (starts : α → List α → Prop) (ends : α → Bool) : ¬ Lasts starts ends [] := by
  rintro ⟨before, e, after, split, -⟩
  exact List.append_ne_nil_of_right_ne_nil before (List.cons_ne_nil e after) split.symm

/-- One event more either starts what lasts, or lets it last. -/
theorem lasts_append_singleton (starts : α → List α → Prop) (ends : α → Bool) (past : List α) (e : α) :
    Lasts starts ends (past ++ [e])
      ↔ starts e [] ∨ ends e = false ∧ Lasts (fun x after => starts x (after ++ [e])) ends past := by
  constructor
  · rintro ⟨before, x, after, split, start, still⟩
    -- what starts is the event itself, or lies before it
    rcases List.eq_nil_or_concat after with rfl | ⟨after, latest, rfl⟩
    · obtain ⟨-, same⟩ := List.append_inj' split rfl
      cases same
      exact .inl start
    · rw [List.concat_eq_append] at split start still
      rw [← List.cons_append, ← List.append_assoc] at split
      obtain ⟨rfl, same⟩ := List.append_inj' split rfl
      cases same
      refine .inr ⟨still e (List.mem_append_right after List.mem_cons_self), before, x, after, rfl,
        start, ?_⟩
      exact fun y hy => still y (List.mem_append_left _ hy)
  · rintro (start | ⟨keeps, before, x, after, rfl, start, still⟩)
    · exact ⟨past, e, [], rfl, start, fun x hx => absurd hx List.not_mem_nil⟩
    · refine ⟨before, x, after ++ [e], by rw [List.append_assoc, List.cons_append], start, ?_⟩
      intro y hy
      rcases List.mem_append.1 hy with hy | hy
      · exact still y hy
      · rw [List.mem_singleton.1 hy]
        exact keeps

end Lasts

/-- Interrupts are enabled after the past: there was a `RETI`, or an `EI` that is not the latest event,
with no `DI` and no interrupt after it. -/
def Enabled (past : List Event) : Prop :=
  Lasts (fun e after => e.isReti = true ∨ e.isEi = true ∧ after ≠ []) Event.disables past

/-- Interrupts are enabled after the past or will be: the `EI` may be the latest event. -/
def Armed (past : List Event) : Prop :=
  Lasts (fun e _ => e.isReti = true ∨ e.isEi = true) Event.disables past

/-- What is enabled was armed. -/
theorem Enabled.armed {past : List Event} (h : Enabled past) : Armed past :=
  Lasts.imp (fun _ _ start => start.imp id And.left) h

/-- After one event more, what was armed is enabled. -/
theorem enabled_append_singleton (past : List Event) (e : Event) :
    Enabled (past ++ [e]) ↔ e.isReti = true ∨ e.disables = false ∧ Armed past := by
  have later (after : List Event) : after ++ [e] ≠ [] :=
    List.append_ne_nil_of_right_ne_nil after (List.cons_ne_nil e [])
  rw [Enabled, lasts_append_singleton]
  simp only [ne_eq, not_true_eq_false, and_false, or_false, later, not_false_eq_true, and_true,
    Armed]

/-- An event arms, or lets be armed what was. -/
theorem armed_append_singleton (past : List Event) (e : Event) :
    Armed (past ++ [e])
      ↔ (e.isReti = true ∨ e.isEi = true) ∨ e.disables = false ∧ Armed past := by
  rw [Armed, lasts_append_singleton]
  rfl

/-- Nothing is armed after a `DI` or an interrupt until the next `RETI` or `EI`. -/
theorem not_armed_of_disables (before : List Event) {e : Event} {after : List Event}
    (disables : e.disables = true) (idle : ∀ x ∈ after, x.isReti = false ∧ x.isEi = false) :
    ¬ Armed (before ++ e :: after) := by
  induction after using List.reverseRecOn with
  | nil =>
    rw [armed_append_singleton, disables]
    rintro ((reti | ei) | ⟨keeps, -⟩)
    · exact Bool.false_ne_true ((Event.disables_of_begins reti (by decide)).symm.trans disables)
    · exact Bool.false_ne_true ((Event.disables_of_begins ei (by decide)).symm.trans disables)
    · cases keeps
  | append_singleton after x ih =>
    obtain ⟨reti, ei⟩ := idle x (List.mem_append_right after List.mem_cons_self)
    rw [← List.cons_append, ← List.append_assoc, armed_append_singleton, reti, ei]
    rintro ((h | h) | ⟨-, armed⟩)
    · cases h
    · cases h
    · exact ih (fun y hy => idle y (List.mem_append_left _ hy)) armed

/-! ## The three bits -/

namespace Gate

/-- The next boundary will find interrupts enabled. -/
def opens (g : Gate) : Bool := g.ime || g.delay

/-- Some boundary will, if nothing else happens. -/
def stirs (g : Gate) : Bool := g.ime || g.delay || g.pending

/-- A boundary hands over what stirs. -/
theorem commit_opens (g : Gate) : g.commit.opens = g.stirs := by
  obtain ⟨ime, pending, delay⟩ := g
  cases ime <;> cases pending <;> cases delay <;> rfl

theorem commit_stirs (g : Gate) : g.commit.stirs = g.stirs := by
  obtain ⟨ime, pending, delay⟩ := g
  cases ime <;> cases pending <;> cases delay <;> rfl

end Gate

/-- What is enabled after an instruction was enabled before it, unless `DI` takes it away, or `RETI`
enables it. -/
theorem onGate_opens (opcode : UInt8) (g : Gate) :
    ((Instruction.ofOpcode opcode).onGate g).opens = true
      ↔ opcode = 0xD9 ∨ opcode ≠ 0xF3 ∧ g.opens = true := by
  have table : ∀ b : UInt8, ∀ ime pending delay : Bool,
      ((Instruction.ofOpcode b).onGate ⟨ime, pending, delay⟩).opens = true
        ↔ b = 0xD9 ∨ b ≠ 0xF3 ∧ Gate.opens ⟨ime, pending, delay⟩ = true :=
    forall_byte (by decide +kernel)
  exact table opcode g.ime g.pending g.delay

/-- And so with what stirs, for which `EI` does what `RETI` does. -/
theorem onGate_stirs (opcode : UInt8) (g : Gate) :
    ((Instruction.ofOpcode opcode).onGate g).stirs = true
      ↔ (opcode = 0xD9 ∨ opcode = 0xFB) ∨ opcode ≠ 0xF3 ∧ g.stirs = true := by
  have table : ∀ b : UInt8, ∀ ime pending delay : Bool,
      ((Instruction.ofOpcode b).onGate ⟨ime, pending, delay⟩).stirs = true
        ↔ (b = 0xD9 ∨ b = 0xFB) ∨ b ≠ 0xF3 ∧ Gate.stirs ⟨ime, pending, delay⟩ = true :=
    forall_byte (by decide +kernel)
  exact table opcode g.ime g.pending g.delay

/-! ## Runs and what they recall -/

/-- Runs of calls from a reset on, each on whatever bus there is, with the milestones since that reset.
The host may set the speed switch in between. -/
inductive History : List Event → Cpu → Prop
  | new (model : Model) (skipBoot : Bool) : History [] (.new model skipBoot)
  | reset {cpu : Cpu} (h : Reachable cpu) (skipBoot : Bool) : History [] (cpu.reset skipBoot)
  | setSpeed {past : List Event} {cpu : Cpu} (h : History past cpu) (speed : SpeedSwitch) :
    History past { cpu with speed := cpu.speed.map fun _ => speed }
  | call {past : List Event} {cpu : Cpu} (h : History past cpu) {β : Type} [Bus β] (bus : β)
    (faultless : (cpu.step bus).fault = none) :
    History (past ++ milestones (cpu.step bus).events) (cpu.step bus).cpu

theorem History.reachable {past : List Event} {cpu : Cpu} (h : History past cpu) :
    Reachable cpu := by
  induction h with
  | new model skipBoot => exact .new model skipBoot
  | reset h skipBoot => exact h.reset skipBoot
  | setSpeed _ speed ih => exact ih.setSpeed speed
  | call _ bus _ ih => exact ih.step bus

/-- What a processor recalls of its past.  The gate is the one that is due, because an instruction
begins before it does what it does. -/
structure Recalls (past : List Event) (cpu : Cpu) : Prop where
  enabled : Enabled past ↔ cpu.due.opens = true
  armed : Armed past ↔ cpu.due.stirs = true
  /-- Only an `EI` that has just been completed is not in force. -/
  latest : Armed past → Enabled past ∨ cpu.suspended = none ∧ cpu.halted = false

/-- Nothing has happened, and nothing is enabled. -/
theorem Recalls.of_closed {cpu : Cpu} (boundary : cpu.suspended = none)
    (closed : cpu.gate = .closed) : Recalls [] cpu := by
  rw [← Cpu.due_of_boundary boundary] at closed
  refine ⟨?_, ?_, fun armed => absurd armed (not_lasts_nil _ _)⟩
  · rw [closed]
    exact iff_of_false (not_lasts_nil _ _) Bool.false_ne_true
  · rw [closed]
    exact iff_of_false (not_lasts_nil _ _) Bool.false_ne_true

section Call

variable {β : Type} [Bus β] {past : List Event} {cpu : Cpu} {bus : β}

/-- One opcode is that of the `EI`. -/
theorem ofOpcode_ei : Instruction.ofOpcode 0xFB = .enableInterrupts := by decide

/-- An `EI` is over with its first call. -/
theorem Cpu.Sound.suspended_of_ei (h : cpu.Sound) (boundary : cpu.suspended = none)
    (awake : cpu.halted = false) (idle : cpu.serves bus = false)
    (ei : opcodeFetched cpu bus = 0xFB) : (cpu.step bus).cpu.suspended = none := by
  have ends := h.fetching_endsAt boundary awake idle (s := .transfer .enableInterruptsLater)
    (by rw [ei, ofOpcode_ei]; rfl) rfl rfl
  exact ends.suspended

/-- An instruction begins, and the processor recalls it. -/
theorem Recalls.begin (h : Recalls past cpu) (sound : cpu.Sound) (boundary : cpu.suspended = none)
    (awake : cpu.halted = false) (idle : cpu.serves bus = false) :
    (cpu.step bus).fault = none ∧ milestones (cpu.step bus).events = [eventFetched cpu bus]
      ∧ Recalls (past ++ milestones (cpu.step bus).events) (cpu.step bus).cpu := by
  let opcode := opcodeFetched cpu bus
  obtain ⟨fault, gate, passed, awakes⟩ := sound.step_begins boundary awake idle
  refine ⟨fault, passed, ?_⟩
  have opcodes : ((eventFetched cpu bus).isReti = true ↔ opcode = 0xD9)
      ∧ ((eventFetched cpu bus).isEi = true ↔ opcode = 0xFB)
      ∧ ((eventFetched cpu bus).disables = false ↔ opcode ≠ 0xF3) := by
    refine ⟨beq_iff_eq, beq_iff_eq, ?_⟩
    show (opcode == 0xF3 || false) = false ↔ _
    rw [Bool.or_false, beq_eq_false_iff_ne]
  have due : cpu.due = cpu.gate := Cpu.due_of_boundary boundary
  rw [passed]
  refine ⟨?_, ?_, ?_⟩
  · rw [enabled_append_singleton, opcodes.1, opcodes.2.2, h.armed, due, gate, onGate_opens,
      Gate.commit_opens]
  · rw [armed_append_singleton, opcodes.1, opcodes.2.1, opcodes.2.2, h.armed, due, gate,
      onGate_stirs, Gate.commit_stirs]
  · rw [enabled_append_singleton, armed_append_singleton]
    rintro ((reti | ei) | kept)
    · exact .inl (.inl reti)
    · have ei : opcode = 0xFB := opcodes.2.1.1 ei
      have live : Instruction.ofOpcode opcode ≠ .halt := by
        rw [ei, ofOpcode_ei]
        exact Instruction.noConfusion
      exact .inr ⟨sound.suspended_of_ei boundary awake idle ei, awakes live⟩
    · exact .inl (.inr kept)

/-- An interrupt is served, and the processor recalls that. -/
theorem Recalls.serve (past : List Event) (sound : cpu.Sound) (boundary : cpu.suspended = none)
    (serves : cpu.serves bus = true) (faultless : (cpu.step bus).fault = none) :
    (∃ e ∈ (cpu.step bus).events, e.isDispatch = true)
      ∧ Recalls (past ++ milestones (cpu.step bus).events) (cpu.step bus).cpu := by
  obtain ⟨line, present⟩ : ∃ line, (Bus.poll (Bus.poll bus).2).1.first? = some line := by
    refine Option.ne_none_iff_exists'.1 fun gone => ?_
    have gone := (InterruptSet.first?_eq_none_iff _).1 gone
    exact absurd ((Cpu.step_vanishing boundary serves gone).1.symm.trans faultless)
      (Option.some_ne_none _)
  obtain ⟨-, came⟩ := sound.step_serving boundary serves present
  have gate : (cpu.step bus).cpu.due = .closed := congrArg Upshot.gate came
  have passed : milestones (cpu.step bus).events = [_] := congrArg Upshot.milestones came
  have served : _ ∈ milestones (cpu.step bus).events := passed ▸ List.mem_cons_self
  have nothing : ¬ Armed (past ++ milestones (cpu.step bus).events) := by
    rw [passed]
    exact not_armed_of_disables past rfl fun x hx => absurd hx List.not_mem_nil
  refine ⟨⟨_, (List.mem_filter.1 served).1, rfl⟩, ?_, ?_, fun armed => absurd armed nothing⟩
  · rw [gate]
    exact iff_of_false (fun enabled => nothing enabled.armed) Bool.false_ne_true
  · rw [gate]
    exact iff_of_false nothing Bool.false_ne_true

/-- A halted processor only hands over its bits, and has nothing to hand over that is not in force. -/
theorem Recalls.idle (h : Recalls past cpu) (boundary : cpu.suspended = none)
    (halted : cpu.halted = true) :
    Recalls (past ++ milestones (cpu.step bus).events) (cpu.step bus).cpu := by
  obtain ⟨-, came⟩ := Cpu.step_idling boundary halted bus
  have gate : (cpu.step bus).cpu.due = cpu.gate.commit := congrArg Upshot.gate came
  have passed : milestones (cpu.step bus).events = [] := congrArg Upshot.milestones came
  have inForce (armed : Armed past) : Enabled past := by
    rcases h.latest armed with enabled | ⟨-, awake⟩
    · exact enabled
    · exact absurd (awake.symm.trans halted) Bool.false_ne_true
  have due : cpu.due = cpu.gate := Cpu.due_of_boundary boundary
  rw [passed, List.append_nil]
  refine ⟨?_, ?_, fun armed => .inl (inForce armed)⟩
  · rw [gate, Gate.commit_opens, ← due, ← h.armed]
    exact ⟨Enabled.armed, inForce⟩
  · rw [gate, Gate.commit_stirs, ← due, h.armed]

/-- Inside an instruction nothing changes of what will have been done to the gate. -/
theorem Recalls.inside {s : Suspension} (h : Recalls past cpu) (sound : cpu.Sound)
    (under : cpu.suspended = some s) :
    Recalls (past ++ milestones (cpu.step bus).events) (cpu.step bus).cpu := by
  obtain ⟨-, came⟩ := sound.step_inside under bus
  have gate : (cpu.step bus).cpu.due = cpu.due := congrArg Upshot.gate came
  have passed : milestones (cpu.step bus).events = [] := congrArg Upshot.milestones came
  rw [passed, List.append_nil]
  refine ⟨gate ▸ h.enabled, gate ▸ h.armed, fun armed => .inl ?_⟩
  rcases h.latest armed with enabled | ⟨boundary, -⟩
  · exact enabled
  · exact absurd (under.symm.trans boundary) (Option.some_ne_none s)

/-- Every call keeps what is recalled. -/
theorem Recalls.step (h : Recalls past cpu) (sound : cpu.Sound)
    (faultless : (cpu.step bus).fault = none) :
    Recalls (past ++ milestones (cpu.step bus).events) (cpu.step bus).cpu := by
  cases under : cpu.suspended with
  | some s => exact h.inside sound under
  | none =>
    cases halted : cpu.halted with
    | true => exact h.idle under halted
    | false =>
      cases serves : cpu.serves bus with
      | true => exact (Recalls.serve past sound under serves faultless).2
      | false => exact (h.begin sound under halted serves).2.2

end Call

/-- The bits are always what the past says. -/
theorem History.recalls {past : List Event} {cpu : Cpu} (h : History past cpu) :
    Recalls past cpu := by
  induction h with
  | new model skipBoot => exact .of_closed rfl rfl
  | reset _ skipBoot => exact .of_closed rfl rfl
  | setSpeed _ speed ih => exact ⟨ih.enabled, ih.armed, ih.latest⟩
  | call h bus faultless ih => exact ih.step h.reachable.sound faultless

/-! ## Decisions -/

/-- Whether a call started to serve an interrupt.  Where the interrupt was gone when it was to be
acknowledged, that ended in a fault. -/
def StartsDispatch {β : Type} (o : Outcome β) : Prop :=
  o.fault = some .noPendingInterrupt ∨ ∃ e ∈ o.events, e.isDispatch = true

/-- Whether a bus shows one of the five lines both requested and enabled. -/
def Bus.HasInterrupt {β : Type} [Bus β] (bus : β) : Prop :=
  let (enabled, requested, _) := Bus.interruptBytes bus
  enabled &&& requested &&& lineMask ≠ 0

/-- What a processor with this past does at a boundary. -/
structure Decides {β : Type} [Bus β] (past : List Event) (cpu : Cpu) (bus : β) : Prop where
  /-- It takes interrupts for enabled if the past says so. -/
  ime : (Machine.commitIme cpu).ime = true ↔ Enabled past
  /-- Unless it is halted, that and the bus decide whether it starts to serve one. -/
  dispatch : cpu.halted = false →
    (StartsDispatch (cpu.step bus) ↔ Enabled past ∧ Bus.HasInterrupt bus)
  /-- Directly after an `EI` before which nothing was armed it does not. -/
  enabling : ∀ before e, past = before ++ [e] → e.isEi = true → ¬ Armed before →
    ¬ StartsDispatch (cpu.step bus)
  /-- Nor does it after a `DI` or an interrupt, whatever was before that, until the next `EI` or
  `RETI`. -/
  disabled : ∀ before e after, past = before ++ e :: after → e.disables = true →
    (∀ x ∈ after, x.isReti = false ∧ x.isEi = false) → ¬ StartsDispatch (cpu.step bus)

section Decide

variable {β : Type} [Bus β] {past : List Event} {cpu : Cpu} {bus : β}

theorem Bus.hasInterrupt_iff : Bus.HasInterrupt bus ↔ (Bus.poll bus).1.isEmpty = false :=
  beq_eq_false_iff_ne.symm

omit [Bus β] in
/-- A call that has not failed and passed no dispatch among its milestones did not start one. -/
theorem not_startsDispatch {o : Outcome β} (faultless : o.fault = none)
    (passed : ∀ e ∈ milestones o.events, e.isDispatch = false) : ¬ StartsDispatch o := by
  rintro (fault | ⟨e, member, dispatch⟩)
  · exact Option.some_ne_none _ (fault.symm.trans faultless)
  · have milestone : e ∈ milestones o.events :=
      List.mem_filter.2 ⟨member, Event.isMilestone_of_isDispatch dispatch⟩
    exact Bool.false_ne_true ((passed e milestone).symm.trans dispatch)

theorem Cpu.Sound.startsDispatch (h : cpu.Sound) (boundary : cpu.suspended = none)
    (serves : cpu.serves bus = true) : StartsDispatch (cpu.step bus) := by
  cases fault : (cpu.step bus).fault with
  | none => exact .inr (Recalls.serve [] h boundary serves fault).1
  | some fault' =>
    rcases (h.ended bus).fault with ⟨none, -⟩ | ⟨vanished, -⟩
    · exact absurd (fault.symm.trans none) (Option.some_ne_none _)
    · exact .inl vanished

/-- A call at a boundary starts to serve an interrupt where the choice says so. -/
theorem Recalls.startsDispatch_iff (h : Recalls past cpu) (sound : cpu.Sound)
    (boundary : cpu.suspended = none) : StartsDispatch (cpu.step bus) ↔ cpu.serves bus = true := by
  refine ⟨fun starts => ?_, sound.startsDispatch boundary⟩
  cases serves : cpu.serves bus with
  | true => rfl
  | false =>
    refine absurd starts ?_
    cases halted : cpu.halted with
    | true =>
      obtain ⟨fault, came⟩ := Cpu.step_idling boundary halted bus
      have passed : milestones (cpu.step bus).events = [] := congrArg Upshot.milestones came
      exact not_startsDispatch fault fun e he => absurd (passed ▸ he) List.not_mem_nil
    | false =>
      obtain ⟨fault, passed, -⟩ := h.begin sound boundary halted serves
      refine not_startsDispatch fault fun e he => ?_
      rw [passed] at he
      rw [List.mem_singleton.1 he]
      rfl

end Decide

/-- At every boundary of every run the past decides. -/
theorem History.decides {past : List Event} {cpu : Cpu} (h : History past cpu)
    (boundary : cpu.atBoundary = true) {β : Type} [Bus β] (bus : β) : Decides past cpu bus := by
  have recalls := h.recalls
  have sound := h.reachable.sound
  have boundary := Cpu.atBoundary_eq_true_iff.1 boundary
  have ime : (Machine.commitIme cpu).ime = true ↔ Enabled past := by
    rw [recalls.enabled, Cpu.due_of_boundary boundary, commitIme_eq]
    rfl
  have starts : StartsDispatch (cpu.step bus) ↔ cpu.serves bus = true :=
    recalls.startsDispatch_iff sound boundary
  have enabled (h : StartsDispatch (cpu.step bus)) : Enabled past := by
    have serves := starts.1 h
    rw [Cpu.serves, Bool.and_eq_true, Bool.and_eq_true] at serves
    exact ime.1 serves.1.2
  refine ⟨ime, ?_, ?_, ?_⟩
  · intro awake
    rw [starts, Cpu.serves, awake, Bool.not_false, Bool.true_and, Bool.and_eq_true, ime,
      Bool.not_eq_true', ← Bus.hasInterrupt_iff]
  · rintro before e rfl ei unarmed h
    rcases (enabled_append_singleton before e).1 (enabled h) with reti | ⟨-, armed⟩
    · exact Bool.false_ne_true ((Event.isReti_of_isEi ei).symm.trans reti)
    · exact unarmed armed
  · rintro before e after rfl disables idle h
    exact not_armed_of_disables before disables idle (enabled h).armed

/-- The processor after an `EI`. -/
def afterEi : Cpu := (Cpu.step (.new .dmg true) (openBusExcept 0x0100 0xFB)).cpu

/-- The processor after an `EI` and a `NOP`. -/
def afterEiNop : Cpu := (afterEi.step (openBusExcept 0x0101 0x00)).cpu

/-- An `EI` is in force after the `NOP` behind it, and not before. -/
theorem History.decides_delayed :
    History [.decoded .base 0xFB 0x0100, .decoded .base 0x00 0x0101] afterEiNop
      ∧ afterEiNop.atBoundary = true
      ∧ Decides [.decoded .base 0xFB 0x0100] afterEi openBus
      ∧ ¬ StartsDispatch (afterEi.step openBus)
      ∧ Decides [.decoded .base 0xFB 0x0100, .decoded .base 0x00 0x0101] afterEiNop openBus
      ∧ StartsDispatch (afterEiNop.step openBus) := by
  have passed : milestones (Cpu.step (.new .dmg true) (openBusExcept 0x0100 0xFB)).events
      = [.decoded .base 0xFB 0x0100] := by decide +kernel
  have passed' : milestones (afterEi.step (openBusExcept 0x0101 0x00)).events
      = [.decoded .base 0x00 0x0101] := by decide +kernel
  have first : History [.decoded .base 0xFB 0x0100] afterEi := by
    have history := History.call (.new .dmg true) (openBusExcept 0x0100 0xFB) (by decide +kernel)
    rwa [passed] at history
  have second : History [.decoded .base 0xFB 0x0100, .decoded .base 0x00 0x0101] afterEiNop := by
    have history := first.call (openBusExcept 0x0101 0x00) (by decide +kernel)
    rwa [passed'] at history
  have boundary : afterEiNop.atBoundary = true := by decide +kernel
  have decides := History.decides first (by decide +kernel) openBus
  have decides' := History.decides second boundary openBus
  refine ⟨second, boundary, decides, decides.enabling [] _ rfl rfl (not_lasts_nil _ _), decides', ?_⟩
  refine (decides'.dispatch (by decide +kernel)).2
    ⟨⟨[], _, _, rfl, .inr ⟨rfl, List.cons_ne_nil _ _⟩, ?_⟩, ?_⟩
  · exact List.forall_mem_singleton.2 rfl
  · show _ ≠ _
    decide

end Sm83
