import Sm83.Proofs.Microstep.Quiet

/-!
# Steps and the gate

`Position.due` looks ahead to the gate that an instruction will leave.  Here the gate is looked at as it
is, after every single step: between two calls of one instruction it may be neither what it was nor what
it will be.

* `MicroStep.act_gate` — every step does to the gate what `MicroStep.onGate` says, the two that look at
  the interrupt registers included.
* `Position.Keeps` — from this position to the end of the instruction no step takes the gate out of a
  set of gates.  `Position.Keeps.act`: so moves keep it there.
* `Gate.Calm` — one such set.  Only an `EI` takes the gate out of it (`keepsCalm_instruction`).
-/

namespace Sm83

/-! ## Single steps -/

section Acts

variable {β : Type} [Bus β]

/-- A step that reaches beyond the processor does to the gate what it is said to do. -/
theorem Control.act_gate {c : Control} {v w : Scene β} (acts : c.act v = some w) :
    w.core.gate = (MicroStep.control c).onGate v.core.gate := by
  obtain ⟨xs, core, o⟩ := v
  cases c with
  | undefined =>
    cases acts
    rfl
  | halt =>
    cases acts
    split <;> rfl
  | stop =>
    simp only [act] at acts
    split at acts <;> (cases acts; rfl)
  | acknowledge =>
    simp only [act] at acts
    split at acts
    · cases acts
    · cases acts
      rfl

/-- And so does every step. -/
theorem MicroStep.act_gate {s : MicroStep} {v w : Scene β} (acts : s.act v = some w) :
    w.core.gate = s.onGate v.core.gate := by
  obtain ⟨xs, c, o⟩ := v
  match s with
  | .control s => exact Control.act_gate acts
  | .transfer t =>
    obtain ⟨⟨ys, c'⟩, moved, rfl⟩ := Option.map_eq_some_iff.1 acts
    exact (t.act_gate moved).1
  | .cycle s =>
    obtain ⟨⟨ys, o'⟩, -, rfl⟩ := Option.map_eq_some_iff.1 acts
    rfl

end Acts

/-! ## Keeping the gate in a set -/

namespace Position

/-- From here to the end of the instruction every step keeps the gate in `P`. -/
structure Keeps (P : Gate → Prop) (p : Position) : Prop where
  steps : ∀ s ∈ p.steps, ∀ g, P g → P (s.onGate g)
  ending : p.ending.isQuiet = true

/-- Plain steps keep it in every set. -/
theorem Keeps.of_plain (P : Gate → Prop) {steps : List MicroStep}
    (plain : ∀ s ∈ steps, s.isPlain = true) : Keeps P ⟨steps, .exit .retire⟩ := by
  refine ⟨fun s member g holds => ?_, rfl⟩
  rw [MicroStep.onGate_of_isPlain (plain s member)]
  exact holds

/-- The gate is in `P`, and what is still to come keeps it there. -/
structure Keeping {β : Type} (P : Gate → Prop) (r : Option Position) (v : Scene β) : Prop where
  gate : P v.core.gate
  steps : ∀ p, r = some p → p.Keeps P

/-- A move keeps it there. -/
theorem Keeps.act {β : Type} [Bus β] {P : Gate → Prop} {p : Position} {v w : Scene β}
    {r : Option Position} (h : p.Keeps P) (acts : p.act v = some (r, w)) (gate : P v.core.gate) :
    Keeping P r w := by
  cases moved_of_act acts with
  | step first =>
    refine ⟨?_, ?_⟩
    · rw [MicroStep.act_gate first]
      exact h.steps _ List.mem_cons_self _ gate
    · rintro q ⟨⟩
      exact ⟨fun s' hs => h.steps s' (List.mem_cons_of_mem _ hs), h.ending⟩
  | retires | dropped _ _ => exact ⟨gate, nofun⟩
  | taken _ =>
    refine ⟨gate, ?_⟩
    rintro q ⟨⟩
    exact .of_plain P (List.all_eq_true.1 h.ending)
  | decodes _ => exact absurd h.ending Bool.false_ne_true
  | @selects opcode _ _ =>
    refine ⟨gate, ?_⟩
    rintro q ⟨⟩
    exact .of_plain P (PrefixedInstruction.ofOpcode opcode).plain

end Position

/-- What follows the acknowledge of an interrupt keeps the gate in every set. -/
theorem keeps_interrupt (P : Gate → Prop) :
    Position.Keeps P ⟨interruptMicroprogram.steps.tail, .exit .retire⟩ :=
  .of_plain P (List.all_eq_true.1 rfl)

/-! ## Nothing pending while disabled -/

/-- Enabling is pending only while interrupts are enabled anyway. -/
def Gate.Calm (g : Gate) : Prop := g.pending = true → g.ime = true

/-- A closed gate is calm. -/
theorem Gate.calm_closed : Gate.closed.Calm := fun pending => pending

/-- Whether a step does not ask for interrupts to be enabled later. -/
def MicroStep.asksNothing : MicroStep → Bool
  | .transfer .enableInterruptsLater => false
  | _ => true

theorem MicroStep.onGate_calm {s : MicroStep} (h : s.asksNothing = true) {g : Gate} (calm : g.Calm) :
    (s.onGate g).Calm := by
  match s with
  | .transfer t =>
    cases t with
    | enableInterruptsLater => cases h
    | disableInterrupts => exact Gate.calm_closed
    | enableInterrupts => exact fun _ => rfl
    | _ => exact calm
  | .control .acknowledge => exact Gate.calm_closed
  | .control .halt | .control .stop | .control .undefined | .cycle _ => exact calm

/-- Instructions other than `EI` keep the gate calm from their first step on. -/
theorem keepsCalm_instruction {i : Instruction} (h : i ≠ .enableInterrupts) :
    i.microprogram.position.Keeps Gate.Calm := by
  have keeps {p : Position} (steps : p.steps.all MicroStep.asksNothing = true)
      (ending : p.ending.isQuiet = true) : p.Keeps Gate.Calm :=
    ⟨fun s member _ => MicroStep.onGate_calm (List.all_eq_true.1 steps s member), ending⟩
  cases i with
  | enableInterrupts => exact absurd rfl h
  | load dst src => cases dst <;> cases src <;> exact keeps rfl rfl
  | loadImmediate place | modify op place => cases place <;> exact keeps rfl rfl
  | storeA pointer | loadA pointer => cases pointer <;> exact keeps rfl rfl
  | accumulate op src => rcases src with (r | _) | _ <;> cases op <;> exact keeps rfl rfl
  | _ => exact keeps rfl rfl

end Sm83
