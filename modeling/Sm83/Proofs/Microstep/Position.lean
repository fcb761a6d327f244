import Sm83.Cpu.Step
import Sm83.Proofs.Microstep.Action

/-!
# One micro-step after the other

The processor carries out whole stretches of steps at once: `Machine.settle` runs to the next machine
cycle, `Machine.resume` through one and on to the next.  Here the same is done one step at a time, so
that there are moments between the steps to speak about.

* `Position` — where the processor stands in a row of steps: those still to come, and how the row
  ends.  The fetch of an opcode is such a row too.
* `Position.advance` — one move: the next step, or from the end of a row to what follows it.
* `Position.loop` — moves, as long as they take no time.
* `Position.act` — a move as a function on scenes.  `Position.moved_of_act` says once what there is that
  a move can do.
* `Position.OnMicrocode` — the position is the end of a row that there is.

`loop_leads` says that what single moves keep is kept by the loop.  `loop_eq_settle` and
`through_eq_resume`, `through_eq_start`, `through_eq_fetch` tie the moves to the stretches: with fuel
for the moves that can be needed the loop does what the processor does, and more fuel changes
nothing.
-/

namespace Sm83

/-- How a row of steps ends. -/
inductive Ending
  /-- The byte on the scratch stack is an opcode and selects an instruction. -/
  | decode
  /-- As the microprogram of an instruction does. -/
  | exit (e : Exit)
  deriving DecidableEq, Repr

/-- Where the processor stands between two steps. -/
structure Position where
  /-- The steps still to come. -/
  steps : List MicroStep
  /-- What follows them. -/
  ending : Ending
  deriving DecidableEq, Repr

/-- A suspended instruction stands in front of the cycle it waits for. -/
def Suspension.position (s : Suspension) : Position := ⟨.cycle s.cycle :: s.rest, .exit s.exit⟩

/-- The beginning of a microprogram. -/
def Microprogram.position (p : Microprogram) : Position := ⟨p.steps, .exit p.exit⟩

/-- The beginning of an opcode fetch. -/
def fetchPosition : Position := ⟨Microcode.operandByte, .decode⟩

namespace Position

open Machine

/-- Whether the next step takes a machine cycle. -/
def waiting : Position → Bool
  | ⟨.cycle _ :: _, _⟩ => true
  | _ => false

/-- The suspended instruction that stands there. -/
def suspension? : Position → Option Suspension
  | ⟨.cycle c :: rest, .exit exit⟩ => some ⟨c, rest, exit⟩
  | _ => none

/-! ## Moves -/

variable {β : Type} [Bus β]

/-- One move.  Gives the position after it, or nothing where the instruction is over. -/
def advance : Position → MachineM β (Option Position)
  | ⟨s :: rest, ending⟩ => do
    s.run
    return some ⟨rest, ending⟩
  | ⟨[], .decode⟩ => do
    let opcode ← onCpu Cpu.popByte
    emit (.decoded .base opcode (← getCpu).opcodeAddress)
    return some (Instruction.ofOpcode opcode).microprogram.position
  | ⟨[], .exit .retire⟩ => return none
  | ⟨[], .exit (.branch condition taken leftover)⟩ => do
    if condition.holds (← getCpu).regs.f then return some ⟨taken, .exit .retire⟩
    else
      onCpu (Cpu.onScratch (ScratchStack.drop leftover))
      return none
  | ⟨[], .exit .prefixed⟩ => do
    let opcode ← onCpu Cpu.popByte
    emit (.decoded .prefixed opcode (← getCpu).opcodeAddress)
    return some ⟨(PrefixedInstruction.ofOpcode opcode).steps, .exit .retire⟩

/-- Moves in no time, at most `fuel` of them.  Gives the position at the next machine cycle, or
nothing where the instruction is over. -/
def loop : (fuel : Nat) → Position → MachineM β (Option Position)
  | 0, p => return some p
  | fuel + 1, p =>
    if p.waiting then return some p
    else do
      match ← p.advance with
      | some q => q.loop fuel
      | none => return none

/-- On to the next machine cycle, through it, and on to the one after that. -/
def through (fuel : Nat) (p : Position) : MachineM β (Option Position) := do
  match ← p.loop fuel with
  | none => return none
  | some q =>
    match ← q.advance with
    | none => return none
    | some r => r.loop fuel

/-- A move as a function on scenes. -/
def act : Position → Scene β → Option (Option Position × Scene β)
  | ⟨s :: rest, ending⟩, v => (s.act v).map fun v => (some ⟨rest, ending⟩, v)
  | ⟨[], .decode⟩, ⟨opcode :: xs, c, o⟩ =>
    some (some (Instruction.ofOpcode opcode).microprogram.position,
      ⟨xs, c, o.note (.decoded .base opcode c.opcodeAddress)⟩)
  | ⟨[], .exit .retire⟩, v => some (none, v)
  | ⟨[], .exit (.branch condition taken leftover)⟩, ⟨xs, c, o⟩ =>
    if condition.holds c.regs.f then some (some ⟨taken, .exit .retire⟩, ⟨xs, c, o⟩)
    else if leftover ≤ xs.length then some (none, ⟨xs.drop leftover, c, o⟩)
    else none
  | ⟨[], .exit .prefixed⟩, ⟨opcode :: xs, c, o⟩ =>
    some (some ⟨(PrefixedInstruction.ofOpcode opcode).steps, .exit .retire⟩,
      ⟨xs, c, o.note (.decoded .prefixed opcode c.opcodeAddress)⟩)
  | ⟨[], .decode⟩, ⟨[], _, _⟩ | ⟨[], .exit .prefixed⟩, ⟨[], _, _⟩ => none

/-- What a move does, by what it stands in front of. -/
inductive Moved (v : Scene β) : Position → Option Position → Scene β → Prop
  | step {s : MicroStep} {rest : List MicroStep} {ending : Ending} {w : Scene β}
    (acts : s.act v = some w) : Moved v ⟨s :: rest, ending⟩ (some ⟨rest, ending⟩) w
  | retires : Moved v ⟨[], .exit .retire⟩ none v
  | taken {condition : Condition} {taken : List MicroStep} {leftover : Nat}
    (holds : condition.holds v.core.regs.f = true) :
    Moved v ⟨[], .exit (.branch condition taken leftover)⟩ (some ⟨taken, .exit .retire⟩) v
  /-- The branch is not taken, and what it left on the stack is dropped. -/
  | dropped {condition : Condition} {taken : List MicroStep} {leftover : Nat}
    (fails : ¬ condition.holds v.core.regs.f = true) (enough : leftover ≤ v.stack.length) :
    Moved v ⟨[], .exit (.branch condition taken leftover)⟩ none
      { v with stack := v.stack.drop leftover }
  | decodes {opcode : UInt8} {xs : List UInt8} (top : v.stack = opcode :: xs) :
    Moved v ⟨[], .decode⟩ (some (Instruction.ofOpcode opcode).microprogram.position)
      ⟨xs, v.core, v.out.note (.decoded .base opcode v.core.opcodeAddress)⟩
  | selects {opcode : UInt8} {xs : List UInt8} (top : v.stack = opcode :: xs) :
    Moved v ⟨[], .exit .prefixed⟩
      (some ⟨(PrefixedInstruction.ofOpcode opcode).steps, .exit .retire⟩)
      ⟨xs, v.core, v.out.note (.decoded .prefixed opcode v.core.opcodeAddress)⟩

/-- It does nothing else. -/
theorem moved_of_act {p : Position} {r : Option Position} {v w : Scene β}
    (acts : p.act v = some (r, w)) : Moved v p r w := by
  obtain ⟨steps, ending⟩ := p
  obtain ⟨xs, c, o⟩ := v
  match steps, ending, xs with
  | s :: rest, ending, xs =>
    obtain ⟨w', first, e⟩ := Option.map_eq_some_iff.1 acts
    cases e
    exact .step first
  | [], .exit .retire, xs =>
    cases acts
    exact .retires
  | [], .exit (.branch condition taken leftover), xs =>
    simp only [act] at acts
    split at acts
    next holds =>
      cases acts
      exact .taken holds
    next fails =>
      split at acts
      next enough =>
        cases acts
        exact .dropped fails enough
      next => cases acts
  | [], .decode, opcode :: xs =>
    cases acts
    exact .decodes rfl
  | [], .exit .prefixed, opcode :: xs =>
    cases acts
    exact .selects rfl
  | [], .decode, [] | [], .exit .prefixed, [] => cases acts

omit [Bus β] in
/-- Popping a byte and taking note of what it selects. -/
theorem select_performs (event : UInt8 → UInt16 → Event) (next : UInt8 → Option Position)
    (opcode : UInt8) (xs : List UInt8) (c : Core) (o : Outside β) :
    Performs (do
        let opcode ← onCpu Cpu.popByte
        emit (event opcode (← getCpu).opcodeAddress)
        return next opcode)
      ⟨opcode :: xs, c, o⟩ (next opcode) ⟨xs, c, o.note (event opcode c.opcodeAddress)⟩ := by
  refine (Performs.popByte c o opcode).bind <| Performs.getCpu_bind_core fun cpu hc _ => ?_
  have address : cpu.opcodeAddress = c.opcodeAddress := congrArg Core.opcodeAddress hc
  rw [address]
  exact (Performs.emit _ _ _ _).bind (Performs.pure _ _)

/-- A move does to a machine what it does to the scene. -/
theorem advance_performs {p : Position} {v v' : Scene β} {r : Option Position}
    (h : p.act v = some (r, v')) (room : v'.stack.length ≤ scratchCapacity) :
    Performs p.advance v r v' := by
  obtain ⟨xs, c, o⟩ := v
  match p with
  | ⟨s :: rest, ending⟩ =>
    obtain ⟨w, e, hw⟩ := Option.map_eq_some_iff.1 h
    cases hw
    exact (Performs.microStep e room).bind (Performs.pure _ _)
  | ⟨[], .exit .retire⟩ =>
    cases h
    exact Performs.pure _ _
  | ⟨[], .exit (.branch condition taken leftover)⟩ =>
    refine Performs.getCpu_bind_core fun cpu hc _ => ?_
    have flags : cpu.regs.f = c.regs.f := congrArg (fun c => c.regs.f) hc
    simp only [act] at h
    rw [flags]
    split at h
    next holds =>
      cases h
      rw [if_pos holds]
      exact Performs.pure _ _
    next fails =>
      split at h
      next le =>
        cases h
        rw [if_neg fails]
        exact (Performs.drop c o leftover le).bind (Performs.pure _ _)
      next => cases h
  | ⟨[], .decode⟩ =>
    match xs, h with
    | opcode :: xs, h =>
      cases h
      exact select_performs (.decoded .base) _ opcode xs c o
  | ⟨[], .exit .prefixed⟩ =>
    match xs, h with
    | opcode :: xs, h =>
      cases h
      exact select_performs (.decoded .prefixed) _ opcode xs c o

end Position

/-! ## How many moves there can be -/

/-- No row behind the prefix is longer. -/
theorem PrefixedInstruction.length_steps_le (i : PrefixedInstruction) : i.steps.length ≤ 5 := by
  cases i with
  | modify op place =>
    cases place with
    | reg r => exact (by decide : 3 ≤ 5)
    | atHl => exact Nat.le_refl 5
  | testBit n place =>
    cases place with
    | reg r => exact (by decide : 2 ≤ 5)
    | atHl => exact (by decide : 3 ≤ 5)

/-- More than the moves from the end of a row can be. -/
def Ending.moves : Ending → Nat
  | .decode => 16
  | .exit .retire => 1
  | .exit (.branch _ taken _) => taken.length + 2
  | .exit .prefixed => 7

theorem Ending.moves_pos (e : Ending) : 0 < e.moves := by
  match e with
  | .decode | .exit .retire | .exit .prefixed => exact (by decide)
  | .exit (.branch _ taken _) => exact Nat.succ_pos _

/-- More than the moves from a position to the end of the instruction can be. -/
def Position.moves (p : Position) : Nat := p.steps.length + p.ending.moves

/-- An instruction needs fewer moves than the end of the fetch allows for. -/
theorem Instruction.moves_lt (i : Instruction) : i.microprogram.position.moves < 16 := by
  cases i with
  | load dst src => cases dst <;> cases src <;> exact Nat.le_of_ble_eq_true rfl
  | loadImmediate place | modify op place => cases place <;> exact Nat.le_of_ble_eq_true rfl
  | storeA pointer | loadA pointer => cases pointer <;> exact Nat.le_of_ble_eq_true rfl
  | accumulate op src =>
    rcases src with (r | _) | _ <;> cases op <;> exact Nat.le_of_ble_eq_true rfl
  | _ => exact Nat.le_of_ble_eq_true rfl

/-- No position on the microcode needs more moves: the longest way is that from an opcode fetch. -/
def longestWay : Nat := 19

namespace Position

open Machine

variable {β : Type} [Bus β]

omit [Bus β] in
/-- A computation in two parts that succeeds has succeeded in both. -/
theorem exists_of_bind_eq_ok {α γ : Type} {x : MachineM β α} {f : α → MachineM β γ}
    {m m' : Machine β} {b : γ} (h : (x >>= f) m = .ok b m') :
    ∃ a m₁, x m = .ok a m₁ ∧ f a m₁ = .ok b m' := by
  change EStateM.bind x f m = .ok b m' at h
  rw [EStateM.bind] at h
  split at h
  next a m₁ e => exact ⟨a, m₁, e, h⟩
  next => cases h

/-- Where a successful move can lead. -/
inductive Successor : Position → Position → Prop
  | step (s : MicroStep) (rest : List MicroStep) (ending : Ending) :
    Successor ⟨s :: rest, ending⟩ ⟨rest, ending⟩
  | decode (opcode : UInt8) :
    Successor ⟨[], .decode⟩ (Instruction.ofOpcode opcode).microprogram.position
  | branch (condition : Condition) (taken : List MicroStep) (leftover : Nat) :
    Successor ⟨[], .exit (.branch condition taken leftover)⟩ ⟨taken, .exit .retire⟩
  | prefixed (opcode : UInt8) :
    Successor ⟨[], .exit .prefixed⟩ ⟨(PrefixedInstruction.ofOpcode opcode).steps, .exit .retire⟩

theorem successor_of_advance {p q : Position} {m m' : Machine β}
    (h : p.advance m = .ok (some q) m') : Successor p q := by
  match p with
  | ⟨s :: rest, ending⟩ =>
    obtain ⟨_, _, _, h⟩ := exists_of_bind_eq_ok h
    cases h
    exact .step s rest ending
  | ⟨[], .exit .retire⟩ => cases h
  | ⟨[], .exit (.branch condition taken leftover)⟩ =>
    obtain ⟨_, _, _, h⟩ := exists_of_bind_eq_ok h
    split at h
    · cases h
      exact .branch condition taken leftover
    · obtain ⟨_, _, _, h⟩ := exists_of_bind_eq_ok h
      cases h
  | ⟨[], .decode⟩ =>
    obtain ⟨opcode, _, _, h⟩ := exists_of_bind_eq_ok h
    obtain ⟨_, _, _, h⟩ := exists_of_bind_eq_ok h
    obtain ⟨_, _, _, h⟩ := exists_of_bind_eq_ok h
    cases h
    exact .decode opcode
  | ⟨[], .exit .prefixed⟩ =>
    obtain ⟨opcode, _, _, h⟩ := exists_of_bind_eq_ok h
    obtain ⟨_, _, _, h⟩ := exists_of_bind_eq_ok h
    obtain ⟨_, _, _, h⟩ := exists_of_bind_eq_ok h
    cases h
    exact .prefixed opcode

/-- Every move leaves fewer of them. -/
theorem Successor.moves_lt {p q : Position} (h : Successor p q) : q.moves < p.moves := by
  cases h with
  | step s rest ending =>
    simp only [moves, List.length_cons]
    omega
  | decode opcode => exact (Instruction.ofOpcode opcode).moves_lt
  | branch condition taken leftover =>
    simp only [moves, Ending.moves, List.length_nil]
    omega
  | prefixed opcode =>
    have := (PrefixedInstruction.ofOpcode opcode).length_steps_le
    simp only [moves, Ending.moves, List.length_nil]
    omega

end Position

/-! ## What computations lead to -/

section Leads

variable {β α γ : Type}

/-- How a computation ended satisfies `P`, or where it ended with a fault, `E`. -/
def Leads (P : α → Machine β → Prop) (E : Fault → Machine β → Prop) :
    EStateM.Result Fault (Machine β) α → Prop
  | .ok a m => P a m
  | .error fault m => E fault m

theorem Leads.bind {P : α → Machine β → Prop} {Q : γ → Machine β → Prop}
    {E : Fault → Machine β → Prop} {x : MachineM β α} {f : α → MachineM β γ} {m : Machine β}
    (hx : Leads P E (x m)) (hf : ∀ a m', P a m' → Leads Q E (f a m')) :
    Leads Q E ((x >>= f) m) := by
  change Leads Q E (EStateM.bind x f m)
  rw [EStateM.bind]
  cases e : x m with
  | ok a m' =>
    rw [e] at hx
    exact hf a m' hx
  | error fault m' =>
    rw [e] at hx
    exact hx

/-- What a computation leads to may be weakened, with a view to how it ended. -/
theorem Leads.imp {P P' : α → Machine β → Prop} {E : Fault → Machine β → Prop}
    {r : EStateM.Result Fault (Machine β) α} (h : Leads P E r)
    (weaker : ∀ a m, r = .ok a m → P a m → P' a m) : Leads P' E r := by
  cases r with
  | ok a m => exact weaker a m rfl h
  | error fault m => exact h

end Leads

/-- What holds after a move or a stretch: something of the position that it leads to, or something
else where the instruction is over. -/
def Next {β : Type} (P : Position → Machine β → Prop) (Q : Machine β → Prop) :
    Option Position → Machine β → Prop
  | some p, m => P p m
  | none, m => Q m

namespace Position

open Machine

variable {β : Type} [Bus β]

section Induction

variable {Q : Machine β → Prop} {E : Fault → Machine β → Prop} {fuel : Nat} {p : Position}

/-- The loop does not move where the next step takes a machine cycle. -/
theorem loop_of_waiting (fuel : Nat) (h : p.waiting = true) :
    (p.loop fuel : MachineM β (Option Position)) = pure (some p) := by
  cases fuel with
  | zero => rfl
  | succ fuel => rw [loop, if_pos h]

/-- What moves in no time keep, the loop keeps; and it stops at a machine cycle. -/
theorem loop_leads {P : Position → Machine β → Prop}
    (move : ∀ p m, P p m → p.waiting = false → Leads (Next P Q) E (p.advance m))
    (enough : p.moves ≤ fuel) {m : Machine β} (h : P p m) :
    Leads (Next (fun p m => P p m ∧ p.waiting = true) Q) E (p.loop fuel m) := by
  induction fuel generalizing p m with
  | zero =>
    have := p.ending.moves_pos
    simp only [moves] at enough
    omega
  | succ fuel ih =>
    cases hw : p.waiting with
    | true =>
      rw [loop_of_waiting _ hw]
      exact ⟨h, hw⟩
    | false =>
      have first := move p m h hw
      rw [loop, hw]
      change Leads _ E (EStateM.bind _ _ m)
      rw [EStateM.bind]
      cases e : p.advance m with
      | error fault m' =>
        rw [e] at first
        exact first
      | ok r m' =>
        rw [e] at first
        match r with
        | none => exact first
        | some q =>
          have fewer := (successor_of_advance e).moves_lt
          exact ih (by omega) first

/-- What moves keep, with a count of the machine cycles to come, is kept on the way through one. -/
theorem through_leads {P : Nat → Position → Machine β → Prop}
    (move : ∀ k p m, P k p m → p.waiting = false → Leads (Next (P k) Q) E (p.advance m))
    (tick : ∀ p m, P 1 p m → p.waiting = true → Leads (Next (P 0) Q) E (p.advance m))
    (enough : p.moves ≤ fuel) {m : Machine β} (h : P 1 p m) :
    Leads (Next (fun p m => P 0 p m ∧ p.waiting = true) Q) E (p.through fuel m) := by
  have fits : Leads (Next (fun q m => (P 1 q m ∧ q.moves ≤ fuel) ∧ q.waiting = true) Q) E
      (p.loop fuel m) := by
    refine loop_leads (fun p m ⟨h, hp⟩ hw => ?_) enough ⟨h, enough⟩
    refine (move 1 p m h hw).imp fun r m' e h' => ?_
    match r with
    | none => exact h'
    | some q => exact ⟨h', Nat.le_trans (Nat.le_of_lt (successor_of_advance e).moves_lt) hp⟩
  refine fits.bind fun r m' hr => ?_
  match r, hr with
  | none, hr => exact hr
  | some q, ⟨⟨hq, le⟩, hw⟩ =>
    have second := tick q m' hq hw
    change Leads _ E (EStateM.bind _ _ m')
    rw [EStateM.bind]
    cases e : q.advance m' with
    | error fault m'' =>
      rw [e] at second
      exact second
    | ok r m'' =>
      rw [e] at second
      match r with
      | none => exact second
      | some q' =>
        have fewer := (successor_of_advance e).moves_lt
        exact loop_leads (move 0) (by omega) second

end Induction

/-! ## Moves and stretches -/

/-- The last row of an instruction is a row with nothing behind it. -/
theorem settleLast_eq_settle (steps : List MicroStep) :
    (settleLast steps : MachineM β (Option Suspension)) = settle steps .retire := rfl

/-- Moves in no time lead where a stretch leads. -/
theorem loop_eq_settle {fuel : Nat} {steps : List MicroStep} {exit : Exit}
    (h : (Position.mk steps (.exit exit)).moves ≤ fuel) :
    (loop fuel ⟨steps, .exit exit⟩ : MachineM β (Option Position))
      = Option.map Suspension.position <$> settle steps exit := by
  induction fuel generalizing steps exit with
  | zero =>
    have := (Ending.exit exit).moves_pos
    simp only [moves] at h
    omega
  | succ fuel ih =>
    simp only [moves] at h
    match steps, exit with
    | .cycle c :: rest, exit =>
      rw [loop_of_waiting _ rfl]
      simp only [settle, runInstant, pure_bind, map_pure]
      rfl
    | .transfer t :: rest, exit | .control t :: rest, exit =>
      have fewer : (Position.mk rest (.exit exit)).moves ≤ fuel := by
        simp only [moves, List.length_cons] at h ⊢
        omega
      simp only [loop, waiting, advance, settle, runInstant, bind_assoc, pure_bind, map_bind]
      refine bind_congr fun _ => ?_
      rw [ih fewer, settle, map_bind]
    | [], .retire => rfl
    | [], .branch condition taken leftover =>
      have fewer : (Position.mk taken (.exit .retire)).moves ≤ fuel := by
        simp only [moves, Ending.moves, List.length_nil] at h ⊢
        omega
      simp only [loop, waiting, advance, settle, runInstant, leave, bind_assoc, pure_bind, map_bind]
      refine bind_congr fun cpu => ?_
      split
      · rw [pure_bind, settleLast_eq_settle]
        exact ih fewer
      · simp only [bind_assoc, pure_bind, map_bind, map_pure]
        rfl
    | [], .prefixed =>
      simp only [loop, waiting, advance, settle, runInstant, leave, bind_assoc, pure_bind, map_bind]
      refine bind_congr fun opcode => bind_congr fun cpu => bind_congr fun _ => ?_
      have fewer : (Position.mk (PrefixedInstruction.ofOpcode opcode).steps (.exit .retire)).moves
          ≤ fuel := by
        have := (PrefixedInstruction.ofOpcode opcode).length_steps_le
        simp only [moves, Ending.moves, List.length_nil] at h ⊢
        omega
      rw [settleLast_eq_settle]
      exact ih fewer

/-- The way of a suspended instruction through its cycle. -/
theorem through_eq_resume {fuel : Nat} (s : Suspension) (h : s.position.moves ≤ fuel) :
    (s.position.through fuel : MachineM β (Option Position))
      = Option.map Suspension.position <$> resume s := by
  have fewer : (Position.mk s.rest (.exit s.exit)).moves ≤ fuel := by
    simp only [Suspension.position, moves, List.length_cons] at h ⊢
    omega
  rw [through, loop_of_waiting _ rfl, pure_bind]
  simp only [Suspension.position, advance, resume, bind_assoc, pure_bind, map_bind]
  exact bind_congr fun _ => loop_eq_settle fewer

/-- Where the next step takes no machine cycle, the loop carries it out and goes on. -/
theorem loop_of_instant {fuel : Nat} {s : MicroStep} {rest : List MicroStep} {ending : Ending}
    (h : waiting ⟨s :: rest, ending⟩ = false) :
    (loop (fuel + 1) ⟨s :: rest, ending⟩ : MachineM β (Option Position))
      = s.run >>= fun _ => loop fuel ⟨rest, ending⟩ := by
  rw [loop, h, advance, bind_assoc]
  simp only [Bool.false_eq_true, if_false, pure_bind]

/-- The way of an interrupt through its first cycle, in front of which it is acknowledged. -/
theorem through_eq_start {fuel : Nat} (h : longestWay ≤ fuel) :
    (interruptMicroprogram.position.through fuel : MachineM β (Option Position))
      = Option.map Suspension.position <$> start interruptMicroprogram := by
  obtain ⟨fuel, rfl⟩ := Nat.exists_eq_add_of_le' (Nat.le_trans (by decide : 1 ≤ longestWay) h)
  let s : Suspension :=
    ⟨.delay, Microcode.pushWord .pc ++ Microcode.delay ++ Microcode.internal [.storeWord .pc],
      .retire⟩
  have acknowledged :
      (loop (fuel + 1) interruptMicroprogram.position : MachineM β (Option Position))
        = Control.acknowledge.run >>= fun _ => pure (some s.position) := by
    rw [← loop_of_waiting fuel (p := s.position) rfl]
    exact loop_of_instant rfl
  have started : (start interruptMicroprogram : MachineM β (Option Suspension))
      = Control.acknowledge.run >>= fun _ => resume s := by
    rw [start]
    simp only [interruptMicroprogram, Microprogram.straight, settle, Microcode.delay,
      List.cons_append, List.nil_append, runInstant, bind_assoc, pure_bind]
    rfl
  have resumed : (s.position.through (fuel + 1) : MachineM β (Option Position)) = _ :=
    through_eq_resume s (Nat.le_trans (Nat.le_of_ble_eq_true rfl) h)
  rw [through, loop_of_waiting _ rfl, pure_bind] at resumed
  rw [through, acknowledged, started, bind_assoc, map_bind]
  simp only [pure_bind]
  exact bind_congr fun _ => resumed

/-- The way of a fetch through its cycle, and of the instruction that it selects to the next one. -/
theorem through_eq_fetch {fuel : Nat} (h : longestWay ≤ fuel) :
    (do
      modifyCpu fun cpu => { cpu with opcodeAddress := cpu.regs.pc }
      fetchPosition.through fuel)
      = Option.map Suspension.position <$> fetch (β := β) := by
  obtain ⟨fuel, rfl⟩ := Nat.exists_eq_add_of_le' (Nat.le_trans (by decide : 2 ≤ longestWay) h)
  have addressed : (loop (fuel + 2) fetchPosition : MachineM β (Option Position))
      = do
        onCpu (Transfer.loadWord .pc).run
        onCpu Transfer.advancePc.run
        return some ⟨Microcode.read, .decode⟩ := by
    rw [← loop_of_waiting fuel (p := ⟨Microcode.read, .decode⟩) rfl]
    exact (loop_of_instant rfl).trans (bind_congr fun _ => loop_of_instant rfl)
  have room : 16 ≤ fuel + 1 := Nat.le_of_succ_le_succ (Nat.le_trans (by decide) h)
  have selected (i : Instruction) :
      (loop (fuel + 1) i.microprogram.position : MachineM β (Option Position)) = _ :=
    loop_eq_settle (Nat.le_trans (Nat.le_of_lt i.moves_lt) room)
  simp only [through, addressed, fetch, fetchOpcode, carryOut, Microcode.operandByte, Microcode.read,
    Microcode.internal, List.map_cons, List.map_nil, List.cons_append, List.nil_append, advance,
    MicroStep.run, bind_assoc, pure_bind, map_bind]
  refine bind_congr fun _ => bind_congr fun _ => bind_congr fun _ => bind_congr fun _ => ?_
  rw [loop]
  simp only [waiting, advance, Bool.false_eq_true, if_false, bind_assoc, pure_bind]
  exact bind_congr fun _ => bind_congr fun _ => bind_congr fun _ => selected _

end Position

/-! ## Positions on the microcode -/

/-- The rows of steps that there are, with their endings. -/
inductive IsRow : List MicroStep → Ending → Prop
  /-- How an opcode is fetched. -/
  | fetch : IsRow Microcode.operandByte .decode
  /-- What an instruction does after its opcode was fetched. -/
  | instruction (i : Instruction) : IsRow i.microprogram.steps (.exit i.microprogram.exit)
  /-- What follows a branch that is taken. -/
  | taken (i : Instruction) (condition : Condition) (steps : List MicroStep) (leftover : Nat)
      (branches : i.microprogram.exit = .branch condition steps leftover) :
      IsRow steps (.exit .retire)
  /-- What a prefixed instruction does after its second byte was read. -/
  | prefixed (i : PrefixedInstruction) : IsRow i.steps (.exit .retire)
  /-- How an interrupt is served. -/
  | interrupt : IsRow interruptMicroprogram.steps (.exit .retire)

namespace Position

/-- The position is the end of a row. -/
def OnMicrocode (p : Position) : Prop := ∃ row, IsRow row p.ending ∧ p.steps <:+ row

theorem OnMicrocode.of_isRow {row : List MicroStep} {ending : Ending} (h : IsRow row ending) :
    OnMicrocode ⟨row, ending⟩ := ⟨row, h, List.suffix_refl row⟩

/-- No move leaves the microcode. -/
theorem OnMicrocode.successor {p q : Position} (h : p.OnMicrocode) (move : Successor p q) :
    q.OnMicrocode := by
  obtain ⟨row, hr, hs⟩ := h
  cases move with
  | step s rest ending => exact ⟨row, hr, (List.suffix_cons s rest).trans hs⟩
  | decode opcode => exact .of_isRow (.instruction _)
  | branch condition taken leftover =>
    generalize he : Ending.exit (.branch condition taken leftover) = ending at hr
    cases hr with
    | instruction i =>
      exact .of_isRow (.taken i condition taken leftover (Ending.exit.inj he).symm)
    | fetch | taken | prefixed | interrupt => cases he
  | prefixed opcode => exact .of_isRow (.prefixed _)

theorem OnMicrocode.moves_le {p : Position} (h : p.OnMicrocode) : p.moves ≤ longestWay := by
  obtain ⟨row, hr, hs⟩ := h
  have shorter : p.moves ≤ (Position.mk row p.ending).moves := Nat.add_le_add_right hs.length_le _
  refine Nat.le_trans shorter ?_
  generalize p.ending = ending at hr
  cases hr with
  | fetch | interrupt => exact Nat.le_of_ble_eq_true rfl
  | instruction i => exact Nat.le_trans (Nat.le_of_lt i.moves_lt) (by decide)
  | taken i condition steps leftover branches =>
    have := i.moves_lt
    simp only [Microprogram.position, moves, branches, Ending.moves] at this
    simp only [moves, Ending.moves, longestWay]
    omega
  | prefixed i =>
    have := i.length_steps_le
    simp only [moves, Ending.moves, longestWay]
    omega

/-- What holds of rows, and of what is left of them, holds wherever an instruction or an interrupt
waits.  A `HALT` and a `STOP` wait nowhere, and an interrupt waits only after it was acknowledged. -/
theorem OnMicrocode.of_rows {C : List MicroStep → Ending → Prop}
    (suffix : ∀ row steps ending, C row ending → steps <:+ row → C steps ending)
    (instruction : ∀ i : Instruction, i ≠ .halt → i ≠ .stop →
      C i.microprogram.steps (.exit i.microprogram.exit))
    (taken : ∀ (i : Instruction) condition steps leftover,
      i.microprogram.exit = .branch condition steps leftover → C steps (.exit .retire))
    (behind : ∀ i : PrefixedInstruction, C i.steps (.exit .retire))
    (interrupt : C interruptMicroprogram.steps.tail (.exit .retire))
    {s : Suspension} (h : s.position.OnMicrocode) : C s.position.steps s.position.ending := by
  obtain ⟨row, hr, hs⟩ := h
  -- a row of one step in no time has no machine cycle in it
  have waits {c : Control} (short : row = [.control c]) : False := by
    have member : MicroStep.cycle s.cycle ∈ row := hs.subset List.mem_cons_self
    rw [short] at member
    cases member with
    | tail _ h => cases h
  have ending : s.position.ending = .exit s.exit := rfl
  generalize he : s.position.ending = e at hr
  cases hr with
  | fetch => cases ending.symm.trans he
  | instruction i =>
    refine suffix _ _ _ (instruction i ?_ ?_) hs
    · rintro rfl
      exact waits rfl
    · rintro rfl
      exact waits rfl
  | taken i condition steps leftover branches =>
    exact suffix _ _ _ (taken i condition _ leftover branches) hs
  | prefixed i => exact suffix _ _ _ (behind i) hs
  | interrupt =>
    have tail : s.position.steps <:+ interruptMicroprogram.steps.tail := by
      rcases List.suffix_cons_iff.1 hs with same | tail
      · cases same
      · exact tail
    exact suffix _ _ _ interrupt tail

end Position

end Sm83
