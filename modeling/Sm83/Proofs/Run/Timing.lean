import Sm83.Proofs.Run.Safety

/-!
# How long an instruction takes

Nothing in the microcode says how many machine cycles an instruction takes: they are the steps that
take one, counted over the rows that are passed.  The count is made here from the rows and compared
with the published numbers.

* `publishedCycles` — the published numbers, as tables.
* `Timed` — how many machine cycles are still to come at a position.  Which way a branch will go is
  known before it is reached, because the steps in front of a branch leave the flags alone.
* `CallsLeft` — how many calls complete the instruction under way; every call makes it one less,
  whatever the bus answers.
* `Reachable.takesPublishedCycles` — from boundary to boundary it is the published number of calls.
-/

namespace Sm83

/-! ## The published numbers -/

/-- Machine cycles by first byte: of an opcode with a condition where it does not hold, and of the
prefix where the second byte names a register. -/
def baseCycles : List Nat :=
  [1, 3, 2, 2, 1, 1, 2, 1, 5, 2, 2, 2, 1, 1, 2, 1,
    1, 3, 2, 2, 1, 1, 2, 1, 3, 2, 2, 2, 1, 1, 2, 1,
    2, 3, 2, 2, 1, 1, 2, 1, 2, 2, 2, 2, 1, 1, 2, 1,
    2, 3, 2, 2, 3, 3, 3, 1, 2, 2, 2, 2, 1, 1, 2, 1,
    1, 1, 1, 1, 1, 1, 2, 1, 1, 1, 1, 1, 1, 1, 2, 1,
    1, 1, 1, 1, 1, 1, 2, 1, 1, 1, 1, 1, 1, 1, 2, 1,
    1, 1, 1, 1, 1, 1, 2, 1, 1, 1, 1, 1, 1, 1, 2, 1,
    2, 2, 2, 2, 2, 2, 1, 2, 1, 1, 1, 1, 1, 1, 2, 1,
    1, 1, 1, 1, 1, 1, 2, 1, 1, 1, 1, 1, 1, 1, 2, 1,
    1, 1, 1, 1, 1, 1, 2, 1, 1, 1, 1, 1, 1, 1, 2, 1,
    1, 1, 1, 1, 1, 1, 2, 1, 1, 1, 1, 1, 1, 1, 2, 1,
    1, 1, 1, 1, 1, 1, 2, 1, 1, 1, 1, 1, 1, 1, 2, 1,
    2, 3, 3, 4, 3, 4, 2, 4, 2, 4, 3, 2, 3, 6, 2, 4,
    2, 3, 3, 1, 3, 4, 2, 4, 2, 4, 3, 1, 3, 1, 2, 4,
    3, 3, 2, 1, 1, 4, 2, 4, 4, 1, 4, 1, 1, 1, 2, 4,
    3, 3, 2, 1, 1, 4, 2, 4, 3, 2, 4, 1, 1, 1, 2, 4]

/-- Machine cycles of the opcodes with a condition where it holds. -/
def takenCycles : List (UInt8 × Nat) :=
  [(0x20, 3), (0x28, 3), (0x30, 3), (0x38, 3),
    (0xC0, 5), (0xC8, 5), (0xD0, 5), (0xD8, 5),
    (0xC2, 4), (0xCA, 4), (0xD2, 4), (0xDA, 4),
    (0xC4, 6), (0xCC, 6), (0xD4, 6), (0xDC, 6)]

/-- Whether the flags make the condition in an opcode hold: not zero, zero, no carry, carry. -/
def conditionHolds (opcode : UInt8) (f : Flags) : Bool :=
  match opcode.toNat / 8 % 4 with
  | 0 => !f.z
  | 1 => f.z
  | 2 => !f.c
  | _ => f.c

/-- The published number of machine cycles.  The second byte counts where the first is the prefix, the
flags where the opcode has a condition. -/
def publishedCycles (opcode second : UInt8) (f : Flags) : Nat :=
  if opcode = 0xCB then
    if second.toNat % 8 ≠ 6 then 2
    else if second.toNat / 64 = 1 then 3
    else 4
  else match takenCycles.lookup opcode with
    | some taken => if conditionHolds opcode f then taken else baseCycles.getD opcode.toNat 0
    | none => baseCycles.getD opcode.toNat 0

/-! ## Counting cycles in rows -/

/-- Whether a step takes a machine cycle. -/
def MicroStep.takesCycle : MicroStep → Bool
  | .cycle _ => true
  | .transfer _ | .control _ => false

/-- How many machine cycles a row takes. -/
def cyclesIn (steps : List MicroStep) : Nat := steps.countP MicroStep.takesCycle

theorem cyclesIn_cons (s : MicroStep) (rest : List MicroStep) :
    cyclesIn (s :: rest) = cyclesIn rest + if s.takesCycle then 1 else 0 := List.countP_cons

/-- How many machine cycles follow a row with this exit.  What follows the prefix is not counted. -/
def Exit.cycles (f : Flags) : Exit → Nat
  | .retire | .prefixed => 0
  | .branch condition taken _ => if condition.holds f then cyclesIn taken else 0

/-- How many machine cycles an instruction takes after its fetch. -/
def Instruction.cycles (i : Instruction) (f : Flags) : Nat :=
  cyclesIn i.microprogram.steps + i.microprogram.exit.cycles f

/-- The second byte counts where the first is the prefix. -/
theorem publishedCycles_of_ne {opcode : UInt8} (plain : opcode ≠ 0xCB) (second second' : UInt8)
    (f : Flags) : publishedCycles opcode second f = publishedCycles opcode second' f := by
  rw [publishedCycles, publishedCycles, if_neg plain, if_neg plain]

/-- The rows of an unprefixed opcode have the published number of cycles, with the fetch. -/
theorem cycles_eq_published {opcode : UInt8} (h : opcode ≠ 0xCB) (second : UInt8) (f : Flags) :
    (Instruction.ofOpcode opcode).cycles f + 1 = publishedCycles opcode second f := by
  have table : ∀ b : UInt8, b ≠ 0xCB → ∀ z n h c : Bool,
      (Instruction.ofOpcode b).cycles ⟨z, n, h, c⟩ + 1 = publishedCycles b 0 ⟨z, n, h, c⟩ :=
    forall_byte (by decide +kernel)
  rw [publishedCycles_of_ne h second 0]
  exact table opcode h f.z f.n f.h f.c

/-- And so have those behind the prefix, with the fetch and the second byte. -/
theorem prefixed_cycles_eq_published (second : UInt8) (f : Flags) :
    cyclesIn (PrefixedInstruction.ofOpcode second).steps + 2 = publishedCycles 0xCB second f :=
  forall_byte (P := fun second =>
    cyclesIn (PrefixedInstruction.ofOpcode second).steps + 2 = publishedCycles 0xCB second Flags.empty)
    (by decide +kernel) second

/-- No instruction takes less than one machine cycle or more than six. -/
theorem publishedCycles_bounds (opcode second : UInt8) (f : Flags) :
    1 ≤ publishedCycles opcode second f ∧ publishedCycles opcode second f ≤ longestInstruction := by
  have base : ∀ b : UInt8, 1 ≤ baseCycles.getD b.toNat 0
      ∧ baseCycles.getD b.toNat 0 ≤ longestInstruction := forall_byte (by decide +kernel)
  have taken : ∀ entry ∈ takenCycles, 1 ≤ entry.2 ∧ entry.2 ≤ longestInstruction := by decide
  rw [publishedCycles]
  by_cases prefixed : opcode = 0xCB
  · rw [if_pos prefixed]
    split
    · decide
    · split <;> decide
  · rw [if_neg prefixed]
    cases e : takenCycles.lookup opcode with
    | none => exact base opcode
    | some cycles =>
      obtain ⟨before, after, listed, -⟩ := List.lookup_eq_some_iff.1 e
      have bounds := taken (opcode, cycles) (listed ▸ List.mem_append_cons_self)
      cases conditionHolds opcode f with
      | true => exact bounds
      | false => exact base opcode

/-! ## Counting down -/

/-- Steps in front of a branch, none of which touches the flags. -/
def MicroStep.keepsFlags : MicroStep → Bool
  | .transfer (.loadWord _) | .transfer .advancePc | .cycle _ => true
  | _ => false

/-- From the position `n` machine cycles are still to come, where the flags are these. -/
inductive Timed (f : Flags) : Nat → Position → Prop
  | last {steps : List MicroStep} {n : Nat} (count : n = cyclesIn steps) :
    Timed f n ⟨steps, .exit .retire⟩
  | branch {steps taken : List MicroStep} {condition : Condition} {leftover n : Nat}
    (keeps : ∀ s ∈ steps, s.keepsFlags = true)
    (count : n = cyclesIn steps + if condition.holds f then cyclesIn taken else 0) :
    Timed f n ⟨steps, .exit (.branch condition taken leftover)⟩

/-- The rows in front of a branch keep the flags. -/
theorem keepsFlags_of_branch {i : Instruction} {condition : Condition} {taken : List MicroStep}
    {leftover : Nat} (h : i.microprogram.exit = .branch condition taken leftover) :
    ∀ s ∈ i.microprogram.steps, s.keepsFlags = true := by
  cases i with
  | jumpRelative condition | jump condition | call condition | retIf condition =>
    exact List.all_eq_true.1 rfl
  | _ => cases h

/-- Only the prefix has a second opcode byte behind it. -/
theorem eq_prefixed_of_exit {i : Instruction} (h : i.microprogram.exit = .prefixed) :
    i = .prefixed := by
  cases i with
  | prefixed => rfl
  | _ => cases h

/-- An instruction without a second opcode byte is counted from its beginning. -/
theorem timed_instruction {i : Instruction} (h : i ≠ .prefixed) (f : Flags) :
    Timed f (i.cycles f) i.microprogram.position := by
  rw [Microprogram.position, Instruction.cycles]
  cases e : i.microprogram.exit with
  | retire => exact .last rfl
  | branch condition taken leftover => exact .branch (keepsFlags_of_branch e) rfl
  | prefixed => exact absurd (eq_prefixed_of_exit e) h

section Moves

variable {β : Type} [Bus β]

/-- Steps in front of a branch do keep the flags. -/
theorem MicroStep.act_keepsFlags {s : MicroStep} {v w : Scene β} (keeps : s.keepsFlags = true)
    (h : s.act v = some w) : w.core.regs.f = v.core.regs.f := by
  obtain ⟨xs, c, o⟩ := v
  match s with
  | .transfer (.loadWord _) =>
    cases h
    rfl
  | .transfer .advancePc =>
    cases h
    exact c.advancePc_f
  | .cycle t =>
    obtain ⟨⟨ys, o'⟩, -, rfl⟩ := Option.map_eq_some_iff.1 h
    rfl

/-- What is left of a count after a move. -/
def TimedNext (n : Nat) (w : Scene β) : Option Position → Prop
  | some q => Timed w.core.regs.f n q
  | none => n = 0

/-- The count of a position goes down by the machine cycle that its step takes. -/
theorem Timed.act_step {n : Nat} {s : MicroStep} {rest : List MicroStep} {ending : Ending}
    {v w : Scene β} (h : Timed v.core.regs.f n ⟨s :: rest, ending⟩) (acts : s.act v = some w) :
    ∃ left, n = left + (if s.takesCycle then 1 else 0)
      ∧ Timed w.core.regs.f left ⟨rest, ending⟩ := by
  cases h with
  | last count =>
    exact ⟨cyclesIn rest, by rw [count, cyclesIn_cons], .last rfl⟩
  | @branch _ taken condition leftover _ keeps count =>
    have same : w.core.regs.f = v.core.regs.f :=
      MicroStep.act_keepsFlags (keeps s List.mem_cons_self) acts
    refine ⟨_, ?_, .branch (fun s' hs => keeps s' (List.mem_cons_of_mem s hs)) rfl⟩
    rw [count, same, cyclesIn_cons, Nat.add_right_comm]

/-- A move in no time leaves the count. -/
theorem Timed.act {n : Nat} {p : Position} {v w : Scene β} {r : Option Position}
    (h : Timed v.core.regs.f n p) (instant : p.waiting = false) (acts : p.act v = some (r, w)) :
    TimedNext n w r := by
  cases Position.moved_of_act acts with
  | @step s _ _ _ first =>
    obtain ⟨left, count, timed⟩ := h.act_step first
    have instant : s.takesCycle = false := by
      cases s with
      | transfer t | control c => rfl
      | cycle c => cases instant
    rw [instant] at count
    exact count ▸ timed
  | retires =>
    cases h with
    | last count => exact count
  | taken holds =>
    cases h with
    | branch _ count => exact .last (by rw [count, if_pos holds]; exact Nat.zero_add _)
  | dropped fails _ =>
    cases h with
    | branch _ count =>
      rw [count, if_neg fails]
      rfl
  | decodes _ | selects _ => cases h

/-- A machine cycle makes it one less. -/
theorem Timed.act_waiting {n : Nat} {p : Position} {v w : Scene β} {r : Option Position}
    (h : Timed v.core.regs.f (n + 1) p) (waits : p.waiting = true) (acts : p.act v = some (r, w)) :
    TimedNext n w r := by
  obtain ⟨steps, ending⟩ := p
  match steps, waits with
  | .cycle c :: rest, _ =>
    obtain ⟨w', e, hw⟩ := Option.map_eq_some_iff.1 acts
    cases hw
    obtain ⟨left, count, timed⟩ := h.act_step e
    have : n = left := Nat.succ.inj count
    exact this ▸ timed

/-- There is a machine cycle to come where the next step takes one. -/
theorem Timed.pos {n : Nat} {p : Position} {f : Flags} (h : Timed f n p) (waits : p.waiting = true) :
    ∃ n', n = n' + 1 := by
  obtain ⟨steps, ending⟩ := p
  match steps, waits with
  | .cycle c :: rest, _ =>
    cases h with
    | last count => exact ⟨_, count.trans (cyclesIn_cons _ _)⟩
    | branch keeps count =>
      rw [cyclesIn_cons, Nat.add_right_comm] at count
      exact ⟨_, count⟩

/-! ## Calls -/

/-- The count stands at `n`, and nothing can go wrong. -/
structure Counting (n : Nat) (p : Position) (m : Machine β) : Prop where
  micro : p.OnMicrocode
  balanced : p.Balanced m.cpu.scratch.depth
  timed : Timed m.cpu.regs.f n p

/-- A move that goes as the count goes. -/
theorem Counting.advance_of_next {n n' : Nat} {p : Position} {m : Machine β} (h : Counting n p m)
    (next : ∀ r w, p.act (m.scene []) = some (r, w) → TimedNext n' w r) :
    Leads (Next (Counting n') fun _ => n' = 0) (fun _ _ => False) (p.advance m) := by
  obtain ⟨r, m', e, acts, hn, -⟩ := Position.advance_of_balanced h.balanced
  have timed := next r _ acts
  rw [e]
  match r, hn, timed with
  | none, _, timed => exact timed
  | some q, hn, timed =>
    exact ⟨h.micro.successor (Position.successor_of_advance e), hn, timed⟩

theorem Counting.advance {n : Nat} {p : Position} {m : Machine β} (h : Counting n p m)
    (instant : p.waiting = false) :
    Leads (Next (Counting n) fun _ => n = 0) (fun _ _ => False) (p.advance m) :=
  h.advance_of_next fun _ _ acts => Timed.act h.timed instant acts

theorem Counting.advance_waiting {n : Nat} {p : Position} {m : Machine β}
    (h : Counting (n + 1) p m) (waits : p.waiting = true) :
    Leads (Next (Counting n) fun _ => n = 0) (fun _ _ => False) (p.advance m) :=
  h.advance_of_next fun _ _ acts => Timed.act_waiting h.timed waits acts

/-- After `n` more calls the instruction under way is over. -/
inductive CallsLeft : Nat → Cpu → Prop
  | finished {cpu : Cpu} (boundary : cpu.suspended = none) : CallsLeft 0 cpu
  | going {cpu : Cpu} {s : Suspension} {n : Nat} (under : cpu.suspended = some s)
    (timed : Timed cpu.regs.f (n + 1) s.position) : CallsLeft (n + 1) cpu

/-- A call that left a count has not failed. -/
theorem callsLeft_of_left {cpu : Cpu} {bus : β} {n : Nat}
    (h : Leads (fun _ => Left (fun p m => Counting n p m ∧ p.waiting = true) fun _ => n = 0)
      (fun _ _ => False) (Machine.cycle ⟨cpu, bus, []⟩)) :
    (cpu.step bus).fault = none ∧ CallsLeft n (cpu.step bus).cpu := by
  refine Cpu.step_of_left (Φ := fun o => o.fault = none ∧ CallsLeft n o.cpu) h ?_ ?_
    fun _ _ => False.elim
  · rintro s m ⟨counting, waits⟩
    obtain ⟨n, rfl⟩ := counting.timed.pos waits
    exact ⟨rfl, .going rfl counting.timed⟩
  · rintro m rfl
    exact ⟨rfl, .finished rfl⟩

/-- A call makes the calls that are left one less. -/
theorem CallsLeft.step {cpu : Cpu} {n : Nat} (h : CallsLeft (n + 1) cpu) (sound : cpu.Sound)
    (bus : β) : (cpu.step bus).fault = none ∧ CallsLeft n (cpu.step bus).cpu := by
  cases h with
  | @going _ s _ under timed =>
    obtain ⟨balanced, micro⟩ := sound.within s under
    refine callsLeft_of_left (cycle_leads (P := fun k p m => Counting (n + k) p m)
      (fun k p m h instant => ?_) (fun p m h waits => h.advance_waiting waits)
      (fun p m h => h.micro) ?_)
    · refine (h.advance instant).imp fun r m' _ h' => ?_
      match r, h' with
      | some q, h' => exact h'
      | none, none_left => exact Nat.eq_zero_of_add_eq_zero_right none_left
    · rw [Machine.enter_of_suspended under]
      exact ⟨micro, balanced, timed⟩

/-! ## The first calls -/

theorem ofOpcode_prefix : Instruction.ofOpcode 0xCB = .prefixed := by decide

theorem eq_prefix_of_ofOpcode {opcode : UInt8} (h : Instruction.ofOpcode opcode = .prefixed) :
    opcode = 0xCB :=
  forall_byte (P := fun b => Instruction.ofOpcode b = .prefixed → b = 0xCB) (by decide +kernel)
    opcode h

/-- The first call of an instruction without a second opcode byte leaves what it takes beyond the
fetch. -/
theorem callsLeft_of_fetch {cpu : Cpu} {bus : β} (boundary : cpu.suspended = none)
    (empty : cpu.scratch.toList = []) (awake : cpu.halted = false) (idle : cpu.serves bus = false)
    (plain : Instruction.ofOpcode (opcodeFetched cpu bus) ≠ .prefixed) :
    (cpu.step bus).fault = none
      ∧ CallsLeft ((Instruction.ofOpcode (opcodeFetched cpu bus)).cycles cpu.regs.f)
        (cpu.step bus).cpu := by
  refine callsLeft_of_left (fetch_leads boundary empty awake idle fun m shown _ => ?_)
  have flags : m.cpu.regs.f = cpu.regs.f :=
    (congrArg (fun v : Scene β => v.core.regs.f) shown).trans (sceneFetched_f cpu bus)
  have depth : m.cpu.scratch.depth = 0 := Machine.depth_of_scene shown
  refine settle_leads (fun p m h instant => h.advance instant) ?_
  exact ⟨.of_isRow (.instruction _), depth ▸ balanced_instruction _,
    flags ▸ timed_instruction plain _⟩

/-- Where the next call reads the second byte of an instruction behind the prefix. -/
structure AwaitsSecond (a : UInt16) (speed : Option SpeedSwitch) (cpu : Cpu) : Prop where
  waits : cpu.suspended = some ⟨.read, [], .prefixed⟩
  address : cpu.scratch.toList = onTop a []
  speed : cpu.speed = speed

/-- The first call of an instruction behind the prefix stops in front of its second byte. -/
theorem awaitsSecond_of_fetch {cpu : Cpu} {bus : β} (boundary : cpu.suspended = none)
    (empty : cpu.scratch.toList = []) (awake : cpu.halted = false) (idle : cpu.serves bus = false)
    (prefixed : Instruction.ofOpcode (opcodeFetched cpu bus) = .prefixed) :
    (cpu.step bus).fault = none
      ∧ AwaitsSecond (if cpu.haltBug then cpu.regs.pc else cpu.regs.pc + 1) cpu.speed
        (cpu.step bus).cpu := by
  let a := if cpu.haltBug then cpu.regs.pc else cpu.regs.pc + 1
  have led : Leads (fun _ => Left (fun p m => p = ⟨[.cycle .read], .exit .prefixed⟩
        ∧ m.cpu.scratch.toList = onTop a [] ∧ m.cpu.speed = cpu.speed) fun _ => False)
      (fun _ _ => False) (Machine.cycle ⟨cpu, bus, []⟩) := by
    refine fetch_leads boundary empty awake idle fun m shown kept => ?_
    have stops : Performs (Machine.settle Microcode.operandByte .prefixed) (sceneFetched cpu bus)
        (some ⟨.read, [], .prefixed⟩)
        ⟨onTop (sceneFetched cpu bus).core.regs.pc [], (sceneFetched cpu bus).core.advancePc,
          (sceneFetched cpu bus).out⟩ := by
      simp only [Microcode.operandByte, Microcode.internal, Microcode.read, List.map_cons,
        List.map_nil, List.cons_append, List.nil_append, Machine.settle, Machine.runInstant,
        bind_assoc, pure_bind]
      exact (Performs.transfer rfl (Nat.le_of_ble_eq_true rfl)).bind <| Performs.advancePc.bind <|
        Performs.pure _ _
    obtain ⟨m', e, shown', -⟩ := stops [] m shown
    rw [prefixed]
    change Leads _ _ (Machine.settle Microcode.operandByte .prefixed m)
    rw [e]
    have stack := congrArg Scene.stack shown'
    have speed := congrArg (fun v : Scene β => v.out.speed) shown'
    exact ⟨rfl, stack.trans (congrArg (onTop · []) (sceneFetched_pc cpu bus)),
      speed.trans (sceneFetched_speed cpu bus)⟩
  refine Cpu.step_of_left (Φ := fun o => o.fault = none ∧ AwaitsSecond a cpu.speed o.cpu) led ?_
    (fun _ => False.elim) (fun _ _ => False.elim)
  rintro ⟨c, rest, exit⟩ m ⟨p, address, speed⟩
  cases p
  exact ⟨rfl, rfl, address, speed⟩

/-- The byte that a call reads from an address. -/
def byteRead (a : UInt16) (speed : Option SpeedSwitch) (bus : β) : UInt8 :=
  ((Outside.mk speed bus []).load a).1

/-- The way of the call that reads the second byte. -/
inductive ReadsSecond (a : UInt16) (b : UInt8) : Nat → Position → Machine β → Prop
  | address {m : Machine β} {c : Core} {o : Outside β} (shown : m.scene [] = ⟨onTop a [], c, o⟩)
    (byte : (o.load a).1 = b) : ReadsSecond a b 1 ⟨[.cycle .read], .exit .prefixed⟩ m
  | byte {m : Machine β} {c : Core} {o : Outside β} (shown : m.scene [] = ⟨[b], c, o⟩) :
    ReadsSecond a b 0 ⟨[], .exit .prefixed⟩ m
  | counting {p : Position} {m : Machine β}
    (h : Counting (cyclesIn (PrefixedInstruction.ofOpcode b).steps) p m) : ReadsSecond a b 0 p m

/-- The second byte is read in the machine cycle. -/
theorem ReadsSecond.advance_waiting {a : UInt16} {b : UInt8} {p : Position} {m : Machine β}
    (h : ReadsSecond a b 1 p m) :
    Leads (Next (ReadsSecond a b 0) fun _ => False) (fun _ _ => False) (p.advance m) := by
  cases h with
  | @address _ c o shown byte =>
    have acts : (Position.mk [.cycle .read] (.exit .prefixed)).act ⟨onTop a [], c, o⟩
        = some (some ⟨[], .exit .prefixed⟩, ⟨[b], c, (o.load a).2⟩) := by
      rw [Position.act, ← byte]
      simp only [onTop, MicroStep.act, MachineCycle.act, Word.ofBytes_high_low, Option.map_some]
    obtain ⟨m', e, shown', -⟩ := Position.advance_performs acts (Nat.le_of_ble_eq_true rfl) [] m shown
    rw [e]
    exact .byte shown'

/-- And decides about the rest of the instruction. -/
theorem ReadsSecond.advance {a : UInt16} {b : UInt8} {k : Nat} {p : Position} {m : Machine β}
    (h : ReadsSecond a b k p m) (instant : p.waiting = false) :
    Leads (Next (ReadsSecond a b k)
        fun _ => cyclesIn (PrefixedInstruction.ofOpcode b).steps = 0)
      (fun _ _ => False) (p.advance m) := by
  cases h with
  | address => cases instant
  | byte shown =>
    obtain ⟨m', e, shown', -⟩ :=
      Position.advance_performs (p := ⟨[], .exit .prefixed⟩) rfl (Nat.zero_le _) [] m shown
    rw [e]
    have empty : m'.cpu.scratch.depth = 0 := Machine.depth_of_scene shown'
    exact .counting ⟨.of_isRow (.prefixed _), empty ▸ balanced_prefixed _, .last rfl⟩
  | counting h =>
    refine (h.advance instant).imp fun r m' _ h' => ?_
    match r, h' with
    | some q, h' => exact .counting h'
    | none, h' => exact h'

/-- The call that reads the second byte leaves what the instruction takes beyond that. -/
theorem AwaitsSecond.step {a : UInt16} {speed : Option SpeedSwitch} {cpu : Cpu}
    (h : AwaitsSecond a speed cpu) (bus : β) :
    (cpu.step bus).fault = none
      ∧ CallsLeft (cyclesIn (PrefixedInstruction.ofOpcode (byteRead a speed bus)).steps)
        (cpu.step bus).cpu := by
  refine callsLeft_of_left (Leads.imp (cycle_leads (P := ReadsSecond a (byteRead a speed bus))
    (fun k p m h instant => h.advance instant) (fun p m h _ => h.advance_waiting.imp ?_)
    (fun p m h => ?_) ?_) ?_)
  · intro r m' _ h'
    match r, h' with
    | some q, h' => exact h'
  · cases h with
    | address => exact ⟨_, .instruction .prefixed, List.suffix_append _ _⟩
  · rw [Machine.enter_of_suspended h.waits]
    refine .address (c := cpu.core) (o := ⟨speed, bus, []⟩) ?_ rfl
    rw [Machine.scene]
    change Scene.mk cpu.scratch.toList cpu.core ⟨cpu.speed, bus, []⟩ = _
    rw [h.address, h.speed]
  · intro _ m' _ left
    refine left.imp fun p m h => ?_
    obtain ⟨reads, waits⟩ := h
    cases reads with
    | byte => cases waits
    | counting h => exact ⟨h, waits⟩

/-! ## From boundary to boundary -/

end Moves

/-- The processor after `k` calls, each on a bus of its own. -/
def Cpu.after {β : Type} [Bus β] (cpu : Cpu) (buses : Nat → β) : (k : Nat) → Cpu
  | 0 => cpu
  | k + 1 => ((cpu.after buses k).step (buses k)).cpu

section Runs

variable {β : Type} [Bus β] {cpu : Cpu} {buses : Nat → β}

/-- Some calls, and some more. -/
theorem Cpu.after_add (cpu : Cpu) (buses : Nat → β) (j k : Nat) :
    cpu.after buses (j + k) = (cpu.after buses j).after (fun i => buses (j + i)) k := by
  induction k with
  | zero => rfl
  | succ k ih => rw [← Nat.add_assoc, after, after, ih]

theorem Reachable.after (h : Reachable cpu) (buses : Nat → β) (k : Nat) :
    Reachable (cpu.after buses k) := by
  induction k with
  | zero => exact h
  | succ k ih => exact ih.step (buses k)

theorem Cpu.Sound.after (h : cpu.Sound) (buses : Nat → β) (k : Nat) :
    (cpu.after buses k).Sound := by
  induction k with
  | zero => exact h
  | succ k ih => exact ih.step (buses k)

/-- `n` calls without a fault lead to the next boundary and not to one before it. -/
structure TakesCalls (n : Nat) (cpu : Cpu) (buses : Nat → β) : Prop where
  faultless : ∀ k < n, ((cpu.after buses k).step (buses k)).fault = none
  inside : ∀ k, 0 < k → k < n → (cpu.after buses k).atBoundary = false
  boundary : (cpu.after buses n).atBoundary = true

/-- A processor is at a boundary where no calls are left. -/
theorem CallsLeft.atBoundary_eq {n : Nat} (h : CallsLeft n cpu) : cpu.atBoundary = (n == 0) := by
  cases h with
  | finished boundary =>
    rw [Cpu.atBoundary, boundary]
    rfl
  | going under timed =>
    rw [Cpu.atBoundary, under]
    rfl

/-- Calls count down. -/
theorem CallsLeft.after {n j : Nat} (sound : cpu.Sound)
    (h : CallsLeft n (cpu.after buses j)) (k : Nat) (hk : k ≤ n) :
    CallsLeft (n - k) (cpu.after buses (j + k)) := by
  induction k with
  | zero => exact h
  | succ k ih =>
    have before := ih (Nat.le_of_succ_le hk)
    rw [show n - k = n - (k + 1) + 1 by omega] at before
    exact (before.step (sound.after buses (j + k)) (buses (j + k))).2

/-- Where some calls have led to a count, the count tells how many there are in all. -/
theorem CallsLeft.takesCalls {n j : Nat} (sound : cpu.Sound)
    (faultless : ∀ k < j, ((cpu.after buses k).step (buses k)).fault = none)
    (inside : ∀ k, 0 < k → k < j → (cpu.after buses k).atBoundary = false)
    (h : CallsLeft n (cpu.after buses j)) : TakesCalls (j + n) cpu buses := by
  have counted (i : Nat) (hi : i ≤ n) := h.after sound i hi
  refine ⟨fun k hk => ?_, fun k hpos hk => ?_, ?_⟩
  · rcases Nat.lt_or_ge k j with early | late
    · exact faultless k early
    · obtain ⟨i, rfl⟩ := Nat.exists_eq_add_of_le late
      have before := counted i (by omega)
      rw [show n - i = n - (i + 1) + 1 by omega] at before
      exact (before.step (sound.after buses (j + i)) (buses (j + i))).1
  · rcases Nat.lt_or_ge k j with early | late
    · exact inside k hpos early
    · obtain ⟨i, rfl⟩ := Nat.exists_eq_add_of_le late
      rw [(counted i (by omega)).atBoundary_eq, beq_eq_false_iff_ne]
      omega
  · rw [(counted n (Nat.le_refl n)).atBoundary_eq, Nat.sub_self]
    rfl

/-- The published number of machine cycles of the instruction that a processor fetches. -/
def cyclesFetched (cpu : Cpu) (buses : Nat → β) : Nat :=
  publishedCycles (opcodeFetched cpu (buses 0))
    (byteRead (if cpu.haltBug then cpu.regs.pc else cpu.regs.pc + 1) cpu.speed (buses 1)) cpu.regs.f

/-- The first calls of an instruction lead to the count of the others. -/
theorem Cpu.Sound.takesCyclesFetched (h : cpu.Sound) (boundary : cpu.suspended = none)
    (awake : cpu.halted = false) (idle : cpu.serves (buses 0) = false) :
    TakesCalls (cyclesFetched cpu buses) cpu buses := by
  have empty : cpu.scratch.toList = [] := h.toList_eq_nil boundary
  by_cases prefixed : Instruction.ofOpcode (opcodeFetched cpu (buses 0)) = .prefixed
  · obtain ⟨fault, awaits⟩ := awaitsSecond_of_fetch boundary empty awake idle prefixed
    obtain ⟨fault', left⟩ := awaits.step (buses 1)
    rw [cyclesFetched, eq_prefix_of_ofOpcode prefixed, ← prefixed_cycles_eq_published, Nat.add_comm]
    refine left.takesCalls (j := 2) h (fun k hk => ?_) (fun k hpos hk => ?_)
    · obtain rfl | rfl : k = 0 ∨ k = 1 := by omega
      · exact fault
      · exact fault'
    · obtain rfl : k = 1 := by omega
      rw [Cpu.atBoundary, Cpu.after, Cpu.after, awaits.waits]
      rfl
  · obtain ⟨fault, left⟩ := callsLeft_of_fetch boundary empty awake idle prefixed
    have different : opcodeFetched cpu (buses 0) ≠ 0xCB := fun same =>
      prefixed (same ▸ ofOpcode_prefix)
    rw [cyclesFetched, ← cycles_eq_published different, Nat.add_comm]
    refine left.takesCalls (j := 1) h (fun k hk => ?_) (fun k hpos hk => ?_)
    · obtain rfl : k = 0 := Nat.lt_one_iff.1 hk
      exact fault
    · exact absurd hk (Nat.not_lt.2 hpos)

theorem Reachable.takesCyclesFetched (h : Reachable cpu) (boundary : cpu.suspended = none)
    (awake : cpu.halted = false) (idle : cpu.serves (buses 0) = false) :
    TakesCalls (cyclesFetched cpu buses) cpu buses := h.sound.takesCyclesFetched boundary awake idle

/-- From a boundary at which an instruction is fetched, the published number of calls lead to the next
one, whatever the registers hold and the bus answers.  The loops in these calls come to their ends
within `longestWay` moves. -/
theorem Reachable.takesPublishedCycles (h : Reachable cpu) (boundary : cpu.atBoundary = true)
    (awake : cpu.halted = false) (idle : cpu.serves (buses 0) = false) :
    TakesCalls (cyclesFetched cpu buses) cpu buses
      ∧ 1 ≤ cyclesFetched cpu buses ∧ cyclesFetched cpu buses ≤ 6
      ∧ ∀ k fuel, longestWay ≤ fuel →
        Machine.cycle ⟨cpu.after buses k, buses k, []⟩
          = Machine.call fuel ⟨cpu.after buses k, buses k, []⟩ := by
  obtain ⟨lower, upper⟩ := publishedCycles_bounds (opcodeFetched cpu (buses 0))
    (byteRead (if cpu.haltBug then cpu.regs.pc else cpu.regs.pc + 1) cpu.speed (buses 1)) cpu.regs.f
  refine ⟨h.takesCyclesFetched (Option.isNone_iff_eq_none.1 boundary) awake idle, lower, upper,
    fun k fuel enough => Machine.cycle_eq_call enough _ fun s suspended => ?_⟩
  exact Nat.le_trans ((h.after buses k).sound.within s suspended).2.moves_le enough

end Runs

/-- A relative jump under the condition that zero was found, which the flags after the boot program
make hold. -/
def conditionalJump (_ : Nat) : Bus.Scripted (Bus.Blocked Memory) := ⟨[(0x0100, 0x28)], openBus⟩

/-- It takes three machine cycles. -/
theorem Reachable.takesPublishedCycles_conditionalJump :
    Reachable (.new .dmg true) ∧ (Cpu.new .dmg true).atBoundary = true
      ∧ (Cpu.new .dmg true).serves (conditionalJump 0) = false
      ∧ TakesCalls 3 (.new .dmg true) conditionalJump := by
  have reachable : Reachable (.new .dmg true) := .new .dmg true
  have idle : (Cpu.new .dmg true).serves (conditionalJump 0) = false := by decide
  have three : cyclesFetched (.new .dmg true) conditionalJump = 3 := by decide
  exact ⟨reachable, rfl, idle, three ▸ (reachable.takesPublishedCycles rfl rfl idle).1⟩

end Sm83
