import Sm83.Proofs.Microstep.Depth
import Sm83.Proofs.Microstep.Quiet

/-!
# Ordinary steps

Three steps are out of the ordinary: a `HALT` may arm the HALT bug, a `STOP` may switch the speed, and
an acknowledge puts the program counter back.  What all the others do about the HALT bug and the speed
is little, and is said here.

* `MachineCycle.access?` — the data access of a machine cycle, whoever answers it.
* `Demand.onSpeed` — what an access does to the speed switch.
* `Position.Ordinary` — from this position to the end of the instruction all steps are ordinary.

An ordinary move arms nothing, and changes the speed switch only by a write that it sends there
(`Position.Ordinary.act`).  Instructions other than `HALT` and `STOP` are ordinary from their first
step on, and all that waits for a machine cycle is.
-/

namespace Sm83

/-! ## Accesses of data -/

/-- The data access of a machine cycle, with these bytes on the scratch stack.  On the colour model it
may not get as far as the bus. -/
def MachineCycle.access? : MachineCycle → List UInt8 → Option Demand
  | .read, hi :: lo :: _ => some (.read (Word.ofBytes hi lo))
  | .write, hi :: lo :: value :: _ => some (.write (Word.ofBytes hi lo) value)
  | _, _ => none

/-- The data access of the next step at a position. -/
def Position.access? {β : Type} : Position → Scene β → Option Demand
  | ⟨.cycle c :: _, _⟩, v => c.access? v.stack
  | _, _ => none

/-- Where a demand is made. -/
def Demand.address : Demand → UInt16
  | .read a | .write a _ => a

/-- The bus is asked for what the machine cycle accesses, unless the speed switch answers. -/
theorem MachineCycle.demand?_eq (c : MachineCycle) (speed : Option SpeedSwitch) (xs : List UInt8) :
    c.demand? speed xs = (c.access? xs).bind fun d => Demand.unlessSwitch speed d.address d := by
  rcases c with _ | _ | _ <;> rcases xs with _ | ⟨_, _ | ⟨_, _ | _⟩⟩ <;> rfl

theorem Position.demand?_eq {β : Type} (p : Position) (v : Scene β) :
    p.demand? v = (p.access? v).bind fun d => Demand.unlessSwitch v.out.speed d.address d := by
  obtain ⟨steps, ending⟩ := p
  match steps with
  | .cycle c :: rest => exact c.demand?_eq _ _
  | .transfer t :: rest | .control c :: rest | [] => rfl

/-- What a data access does to the speed switch. -/
def Demand.onSpeed (speed : Option SpeedSwitch) : Option Demand → Option SpeedSwitch
  | some (.write a value) =>
    if a = SpeedSwitch.address then speed.map (·.write value) else speed
  | _ => speed

/-- Positions in front of a step in no time access nothing. -/
theorem Position.access?_of_instant {β : Type} {p : Position} (v : Scene β)
    (instant : p.waiting = false) : p.access? v = none := by
  obtain ⟨steps, ending⟩ := p
  match steps with
  | .cycle c :: rest => cases instant
  | .transfer t :: rest | .control c :: rest | [] => rfl

/-- A write reaches the speed switch where there is one, and nothing else does. -/
theorem Outside.store_speed {β : Type} [Bus β] (a : UInt16) (value : UInt8) (o : Outside β) :
    (o.store a value).speed = Demand.onSpeed o.speed (some (.write a value)) := by
  rw [store, speedAt?, Demand.onSpeed]
  by_cases reached : a = SpeedSwitch.address
  · rw [if_pos reached, if_pos reached]
    cases o.speed <;> rfl
  · rw [if_neg reached, if_neg reached]

/-! ## Which steps are ordinary -/

/-- Whether a step is an ordinary one. -/
def MicroStep.isOrdinary : MicroStep → Bool
  | .control .halt | .control .stop | .control .acknowledge => false
  | _ => true

/-- Whether the rows behind a row with this ending are ordinary. -/
def Ending.isOrdinary : Ending → Bool
  | .decode => false
  | .exit (.branch _ taken _) => taken.all MicroStep.isOrdinary
  | .exit .retire | .exit .prefixed => true

/-- From here to the end of the instruction all steps are ordinary. -/
structure Position.Ordinary (p : Position) : Prop where
  steps : ∀ s ∈ p.steps, s.isOrdinary = true
  ending : p.ending.isOrdinary = true

/-- Behind the prefix all steps are ordinary. -/
theorem PrefixedInstruction.ordinary (i : PrefixedInstruction) :
    Position.Ordinary ⟨i.steps, .exit .retire⟩ := by
  cases i with
  | modify op place | testBit n place => cases place <;> exact ⟨List.all_eq_true.1 rfl, rfl⟩

/-- Instructions other than `HALT` and `STOP` are ordinary. -/
theorem ordinary_instruction {i : Instruction} (live : i ≠ .halt) (runs : i ≠ .stop) :
    i.microprogram.position.Ordinary := by
  cases i with
  | halt => exact absurd rfl live
  | stop => exact absurd rfl runs
  | load dst src => cases dst <;> cases src <;> exact ⟨List.all_eq_true.1 rfl, rfl⟩
  | loadImmediate place | modify op place => cases place <;> exact ⟨List.all_eq_true.1 rfl, rfl⟩
  | storeA pointer | loadA pointer => cases pointer <;> exact ⟨List.all_eq_true.1 rfl, rfl⟩
  | accumulate op src =>
    rcases src with (r | _) | _ <;> cases op <;> exact ⟨List.all_eq_true.1 rfl, rfl⟩
  | _ => exact ⟨List.all_eq_true.1 rfl, rfl⟩

/-- And so is serving an interrupt, after the acknowledge. -/
theorem ordinary_interrupt :
    Position.Ordinary ⟨interruptMicroprogram.steps.tail, .exit .retire⟩ :=
  ⟨List.all_eq_true.1 rfl, rfl⟩

/-- Wherever an instruction or an interrupt waits, what is to come is ordinary. -/
theorem Position.OnMicrocode.ordinary {s : Suspension} (h : s.position.OnMicrocode) :
    s.position.Ordinary := by
  refine h.of_rows (C := fun steps ending => Ordinary ⟨steps, ending⟩) ?_ ?_ ?_ ?_ ?_
  · exact fun row steps ending h hs => ⟨fun s member => h.steps s (hs.subset member), h.ending⟩
  · exact fun i live runs => ordinary_instruction live runs
  · intro i condition steps leftover branches
    -- what has a branch is neither of the two
    have ordinary : i.microprogram.position.Ordinary :=
      ordinary_instruction (by rintro rfl; cases branches) (by rintro rfl; cases branches)
    have taken := ordinary.ending
    simp only [Microprogram.position, branches, Ending.isOrdinary] at taken
    exact ⟨List.all_eq_true.1 taken, rfl⟩
  · exact PrefixedInstruction.ordinary
  · exact ordinary_interrupt

/-! ## What ordinary steps do -/

/-- A transfer does not arm the HALT bug. -/
theorem Transfer.act_haltBug {t : Transfer} {xs ys : List UInt8} {c c' : Core}
    (h : t.act xs c = some (ys, c')) (armed : c'.haltBug = true) : c.haltBug = true := by
  match t, xs, h with
  | .loadByte _, xs, rfl | .loadWord _, xs, rfl | .constant _, xs, rfl | .stackSlot, xs, rfl
  | .incSp, xs, rfl | .incHl, xs, rfl | .decHl, xs, rfl | .adjust _, xs, rfl
  | .enableInterruptsLater, xs, rfl | .disableInterrupts, xs, rfl | .enableInterrupts, xs, rfl =>
    exact armed
  | .advancePc, xs, rfl =>
    rw [Core.advancePc] at armed
    split at armed
    · cases armed
    · exact armed
  | .storeByte _, _ :: xs, rfl | .highPage, _ :: xs, rfl | .unary _, _ :: xs, rfl
  | .testBit _, _ :: xs, rfl | .addSpOffset, _ :: xs, rfl | .jumpRelative, _ :: xs, rfl
  | .storeWord _, _ :: _ :: xs, rfl | .incWord, _ :: _ :: xs, rfl | .decWord, _ :: _ :: xs, rfl
  | .alu _, _ :: _ :: xs, rfl | .addWords, _ :: _ :: _ :: _ :: xs, rfl
  | .splitWord _, _ :: _ :: _ :: _ :: xs, rfl => exact armed

section Acts

variable {β : Type} [Bus β]

/-- A machine cycle changes the speed switch as its access does. -/
theorem MachineCycle.act_speed {c : MachineCycle} {xs ys : List UInt8} {o o' : Outside β}
    (h : c.act xs o = some (ys, o')) : o'.speed = Demand.onSpeed o.speed (c.access? xs) := by
  match c, xs, h with
  | .read, hi :: lo :: xs, rfl => exact o.load_speed _
  | .write, hi :: lo :: value :: xs, rfl => exact o.store_speed _ value
  | .delay, xs, rfl => rfl

/-- What a move leaves of the HALT bug and the speed. -/
structure Spares (p : Position) (v w : Scene β) : Prop where
  /-- The HALT bug has not been armed. -/
  bug : w.core.haltBug = true → v.core.haltBug = true
  /-- The speed switch is as the access of the move leaves it. -/
  speed : w.out.speed = Demand.onSpeed v.out.speed (p.access? v)

/-- An ordinary step in front of a row. -/
theorem MicroStep.act_ordinary {s : MicroStep} {rest : List MicroStep} {ending : Ending}
    {v w : Scene β} (ordinary : s.isOrdinary = true) (h : s.act v = some w) :
    Spares ⟨s :: rest, ending⟩ v w := by
  obtain ⟨xs, c, o⟩ := v
  match s with
  | .transfer t =>
    obtain ⟨⟨ys, c'⟩, acts, rfl⟩ := Option.map_eq_some_iff.1 h
    exact ⟨t.act_haltBug acts, rfl⟩
  | .cycle s =>
    obtain ⟨⟨ys, o'⟩, acts, rfl⟩ := Option.map_eq_some_iff.1 h
    exact ⟨id, MachineCycle.act_speed acts⟩
  | .control .undefined =>
    cases h
    exact ⟨id, rfl⟩
  | .control .halt | .control .stop | .control .acknowledge => cases ordinary

/-- An ordinary move leads to an ordinary position, if the instruction goes on, and arms nothing and
changes the speed by its access alone. -/
theorem Position.Ordinary.act {p : Position} {v w : Scene β} {r : Option Position}
    (h : p.Ordinary) (acts : p.act v = some (r, w)) :
    (∀ q, r = some q → q.Ordinary) ∧ Spares p v w := by
  cases moved_of_act acts with
  | step first =>
    refine ⟨?_, MicroStep.act_ordinary (h.steps _ List.mem_cons_self) first⟩
    rintro q ⟨⟩
    exact ⟨fun s' hs => h.steps s' (List.mem_cons_of_mem _ hs), h.ending⟩
  | retires | dropped _ _ => exact ⟨nofun, id, rfl⟩
  | taken _ =>
    refine ⟨?_, id, rfl⟩
    rintro q ⟨⟩
    exact ⟨List.all_eq_true.1 h.ending, rfl⟩
  | decodes _ => exact absurd h.ending Bool.false_ne_true
  | @selects opcode _ _ =>
    refine ⟨?_, id, rfl⟩
    rintro q ⟨⟩
    exact (PrefixedInstruction.ofOpcode opcode).ordinary

end Acts

end Sm83
