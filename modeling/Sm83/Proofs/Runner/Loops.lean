import Mathlib.Order.Bounds.Defs
import Sm83.Proofs.Execution.Refinement
import Sm83.Proofs.Interrupts.Requests
import Sm83.Proofs.Run.Completion
import Sm83.Runner

/-!
# The two loops of a run

A run makes calls until the marker is executed or the budget is spent, and then until no instruction
is under way.  The second loop has no bound of its own: that it ends is a property of the processor,
whatever bytes the image holds and whatever the program makes of them.

* `Memory.load_zero` — an image that fits is in memory byte for byte, and zero behind it.
* `calls` — what the first `n` calls come to, without any loop.  `calls_faultless`: none of them
  fails.  `ahead_succ_lt`: inside an instruction each brings its end nearer.
* `marks_iff`, `atBoundary_of_marks` — which call executes the marker, and that it leaves nothing under
  way.
* `Loop` — a loop with its test and no count.  `loop_runToMarker` and `loop_completeInstruction`: the
  two loops of the runner are such loops, so they end by their tests and not because a count runs out.
* `Verdict`, `runImage_ends` — the two ways in which a run ends.
* `runImage_stops` — so every run ends, within five machine cycles of its budget.
-/

namespace Sm83

/-! ## Images in memory -/

namespace Memory

/-- Memory that holds an image from address zero on, and zero behind it. -/
def ofImage (image : List UInt8) : Memory := ⟨Vector.ofFn fun a => image.getD a.val 0⟩

theorem get_ofImage (image : List UInt8) (a : UInt16) : (ofImage image).get a = image.getD a.toNat 0 :=
  Vector.getElem_ofFn _

/-- Memories with the same byte at each address are the same. -/
theorem ext_get {m m' : Memory} (h : ∀ a, m.get a = m'.get a) : m = m' := by
  refine congrArg mk (Vector.ext fun i hi => ?_)
  have same := h (UInt16.ofNat i)
  have index : (UInt16.ofNat i).toNat = i := UInt16.toNat_ofNat_of_lt' hi
  simpa only [get, index] using same

/-- What a block of bytes that fits leaves at an address. -/
theorem get_setAll (m : Memory) (start : Nat) (block : List UInt8)
    (fits : start + block.length ≤ addressSpace) (a : UInt16) :
    (m.setAll (.ofNat start) block).get a
      = if start ≤ a.toNat ∧ a.toNat < start + block.length then block.getD (a.toNat - start) 0
        else m.get a := by
  induction block generalizing m start with
  | nil =>
    rw [if_neg fun h => absurd h.1 (Nat.not_le.2 h.2)]
    rfl
  | cons value rest ih =>
    rw [List.length_cons] at fits ⊢
    have next : UInt16.ofNat start + 1 = .ofNat (start + 1) := by
      rw [UInt16.ofNat_add]
      rfl
    rw [setAll, next, ih _ (start + 1) (by omega)]
    by_cases here : a.toNat = start
    · have same : UInt16.ofNat start = a := by rw [← here, UInt16.ofNat_toNat]
      rw [if_neg (by omega), if_pos (by omega), same, get_set, here, Nat.sub_self,
        List.getD_cons_zero]
    · have other : UInt16.ofNat start ≠ a := by
        rintro rfl
        exact here (UInt16.toNat_ofNat_of_lt' (Nat.lt_of_lt_of_le (by omega) fits))
      rw [get_set_of_ne _ _ other]
      by_cases later : start + 1 ≤ a.toNat ∧ a.toNat < start + 1 + rest.length
      · rw [if_pos later, if_pos (by omega), ← List.getD_cons_succ (x := value)]
        exact congrArg (List.getD _ · 0) (by omega)
      · rw [if_neg later, if_neg (by omega)]

/-- An image that fits is loaded into empty memory. -/
theorem load_zero {image : List UInt8} (fits : image.length ≤ addressSpace) :
    zero.load 0 image = .ok (ofImage image) := by
  have fits : (0 : UInt16).toNat + image.length ≤ addressSpace := (Nat.zero_add _).symm ▸ fits
  rw [load, if_pos fits]
  refine congrArg Except.ok (ext_get fun a => ?_)
  rw [get_ofImage, show (0 : UInt16) = .ofNat 0 from rfl, get_setAll zero 0 image fits]
  by_cases inside : a.toNat < image.length
  · rw [if_pos ⟨Nat.zero_le _, by omega⟩, Nat.sub_zero]
  · rw [if_neg (by omega), List.getD_eq_getElem?_getD,
      List.getElem?_eq_none (Nat.le_of_not_lt inside)]
    exact Vector.getElem_replicate _

end Memory

/-! ## Runs as calls -/

section Calls

variable (model : Model) (image : List UInt8)

/-- What the first `n` calls come to, from the state after the boot program on, with the image in
memory. -/
def calls (n : Nat) : Outcome Memory :=
  (Outcome.start (.new model true) (.ofImage image)).after n

/-- The call after the first `n`. -/
def nextCall (n : Nat) : Outcome Memory := (calls model image n).cpu.step (calls model image n).bus

/-- That call executes the marker. -/
def Marks (n : Nat) : Prop := (nextCall model image n).events.any Event.isMarker = true

/-- No call fails, because flat memory answers a poll and an acknowledge alike. -/
theorem calls_faultless (n : Nat) :
    Reachable (calls model image n).cpu ∧ (calls model image n).fault = none := by
  induction n with
  | zero => exact ⟨.new model true, rfl⟩
  | succ n ih =>
    obtain ⟨reachable, faultless⟩ := ih
    have next : calls model image (n + 1) = _ := Outcome.next_of_faultless faultless
    rw [next]
    exact ⟨reachable.step _, reachable.sound.step_memory_faultless _⟩

theorem calls_sound (n : Nat) : (calls model image n).cpu.Sound :=
  (calls_faultless model image n).1.sound

/-- One call more. -/
theorem calls_succ (n : Nat) : (calls model image (n + 1)).cpu = (nextCall model image n).cpu
    ∧ (calls model image (n + 1)).bus = (nextCall model image n).bus := by
  have next : calls model image (n + 1) = _ :=
    Outcome.next_of_faultless (calls_faultless model image n).2
  rw [next]
  exact ⟨rfl, rfl⟩

/-- The processor counts the calls. -/
theorem calls_cycles (n : Nat) : (calls model image n).cpu.cycles = n := by
  induction n with
  | zero => rfl
  | succ n ih =>
    have counted := ((calls_sound model image n).step_frame (calls model image n).bus).2
    rw [(calls_succ model image n).1, nextCall, counted, ih]

/-- The machine cycles that can be ahead after `n` calls. -/
def ahead (n : Nat) : Nat := (calls model image n).cpu.suspended.elim 0 (·.position.cyclesAhead)

theorem ahead_le (n : Nat) : ahead model image n ≤ 5 := by
  rw [ahead]
  cases under : (calls model image n).cpu.suspended with
  | none => exact Nat.zero_le _
  | some s => exact Nat.le_of_lt_succ ((calls_sound model image n).within s under).2.cyclesAhead_lt

/-- Inside an instruction a call makes them fewer. -/
theorem ahead_succ_lt (n : Nat) (inside : (calls model image n).cpu.atBoundary = false) :
    ahead model image (n + 1) < ahead model image n := by
  obtain ⟨s, under⟩ := Cpu.atBoundary_eq_false_iff.1 inside
  rw [ahead, ahead, (calls_succ model image n).1, under, Option.elim_some]
  cases left : (nextCall model image n).cpu.suspended with
  | none => exact Position.cyclesAhead_pos rfl
  | some s' => exact (calls_sound model image n).cyclesAhead_lt under left

/-- So there are few calls inside one instruction. -/
theorem length_inside_le (n l : Nat)
    (inside : ∀ i < l, (calls model image (n + i)).cpu.atBoundary = false) : l ≤ 5 := by
  have fewer : ∀ i ≤ l, ahead model image (n + i) + i ≤ ahead model image n := by
    intro i hi
    induction i with
    | zero => exact Nat.le_refl _
    | succ i ih =>
      have lt := ahead_succ_lt model image (n + i) (inside i hi)
      have le := ih (Nat.le_of_succ_le hi)
      show ahead model image (n + i + 1) + (i + 1) ≤ _
      omega
  have := fewer l (Nat.le_refl l)
  have := ahead_le model image n
  omega

/-! ### The marker -/

/-- The marker is an instruction that begins with one opcode. -/
theorem Event.isMarker_eq_begins : Event.isMarker = Event.begins markerOpcode := by
  funext e
  cases e with
  | decoded table => cases table <;> rfl
  | _ => rfl

/-- A call executes the marker if it fetches the marker's opcode, and in no other way. -/
theorem marks_iff (n : Nat) :
    let o := calls model image n
    Marks model image n ↔ o.cpu.atBoundary = true ∧ o.cpu.halted = false
      ∧ o.cpu.serves o.bus = false ∧ opcodeFetched o.cpu o.bus = markerOpcode := by
  intro o
  rw [Marks, Event.isMarker_eq_begins, Cpu.atBoundary_eq_true_iff]
  exact (calls_sound model image n).begins_iff o.bus markerOpcode

/-- The marker is over with its first call. -/
theorem atBoundary_of_marks (n : Nat) (marks : Marks model image n) :
    (calls model image (n + 1)).cpu.atBoundary = true := by
  obtain ⟨boundary, awake, idle, opcode⟩ := (marks_iff model image n).1 marks
  have boundary := Cpu.atBoundary_eq_true_iff.1 boundary
  have sound := calls_sound model image n
  have table : Instruction.ofOpcode markerOpcode = .load (.reg .b) (.reg .b) := by decide
  have left := (callsLeft_of_fetch boundary (sound.toList_eq_nil boundary) awake idle
    (by rw [opcode, table]; exact Instruction.noConfusion)).2
  rw [opcode, table] at left
  rw [(calls_succ model image n).1]
  cases left with
  | finished boundary => exact Cpu.atBoundary_eq_true_iff.2 boundary

end Calls

/-! ## Loops -/

namespace Runner

variable {threshold : Option Log.Level} {model : Model} {image : List UInt8}

/-- A loop that makes calls as long as it `goes`.  From `p` it comes to its end at `q`, and no call on
the way fails. -/
inductive Loop (threshold : Option Log.Level) (goes : Progress → Bool) : Progress → Progress → Prop
  | done {p : Progress} (stops : goes p = false) : Loop threshold goes p p
  | again {p q : Progress} (goes_on : goes p = true)
    (faultless : (advance threshold p).fault = none)
    (rest : Loop threshold goes (advance threshold p) q) : Loop threshold goes p q

/-- As long as the first loop goes: the marker was not executed, and the budget is not spent. -/
def seeks (budget : Nat) (p : Progress) : Bool := !p.finished && decide (p.cpu.cycles < budget)

/-- As long as the second loop goes: an instruction is under way. -/
def completes (p : Progress) : Bool := !p.cpu.atBoundary

/-- A run under way has made `n` calls. -/
structure Follows (model : Model) (image : List UInt8) (n : Nat) (p : Progress) : Prop where
  cpu : p.cpu = (calls model image n).cpu
  memory : p.memory = (calls model image n).bus
  faultless : p.fault = none
  finished : p.finished = true ↔ ∃ k < n, Marks model image k

theorem Follows.start (model : Model) (image : List UInt8) :
    Follows model image 0 (start model (.ofImage image)) :=
  ⟨rfl, rfl, rfl, iff_of_false Bool.false_ne_true fun ⟨_, h, _⟩ => Nat.not_lt_zero _ h⟩

theorem Follows.cycles {n : Nat} {p : Progress} (h : Follows model image n p) : p.cpu.cycles = n := by
  rw [h.cpu, calls_cycles]

/-- One call more. -/
theorem Follows.advance {n : Nat} {p : Progress} (h : Follows model image n p) :
    Follows model image (n + 1) (advance threshold p) := by
  obtain ⟨cpu, memory, finished, fault, kept⟩ := p
  obtain ⟨rfl, rfl, -, found⟩ := h
  obtain ⟨cpu, bus⟩ := calls_succ model image n
  refine ⟨cpu.symm, bus.symm, (calls_sound model image n).step_memory_faultless _, ?_⟩
  show (finished || _) = true ↔ _
  rw [Bool.or_eq_true]
  constructor
  · rintro (before | now)
    · obtain ⟨k, hk, marks⟩ := found.1 before
      exact ⟨k, Nat.lt_succ_of_lt hk, marks⟩
    · exact ⟨n, Nat.lt_succ_self n, now⟩
  · rintro ⟨k, hk, marks⟩
    rcases Nat.lt_or_eq_of_le (Nat.le_of_lt_succ hk) with before | rfl
    · exact .inl (found.2 ⟨k, before, marks⟩)
    · exact .inr marks

/-- A loop makes calls, and goes at each but the last. -/
theorem Loop.follows {goes : Progress → Bool} {p q : Progress} (loop : Loop threshold goes p q)
    {n : Nat} (h : Follows model image n p) :
    ∃ l, Follows model image (n + l) q ∧ goes q = false
      ∧ ∀ i < l, ∃ p', Follows model image (n + i) p' ∧ goes p' = true := by
  induction loop generalizing n with
  | done stops => exact ⟨0, h, stops, fun i hi => absurd hi (Nat.not_lt_zero i)⟩
  | @again p q goes_on _ _ ih =>
    obtain ⟨l, follows, stops, before⟩ := ih h.advance
    refine ⟨l + 1, ?_, stops, fun i hi => ?_⟩
    · rw [Nat.add_comm l, ← Nat.add_assoc]
      exact follows
    · cases i with
      | zero => exact ⟨p, h, goes_on⟩
      | succ i =>
        rw [Nat.add_comm i, ← Nat.add_assoc]
        exact before i (Nat.lt_of_succ_lt_succ hi)

/-- The first loop comes to its end, for it makes no more calls than the budget allows. -/
theorem loop_runToMarker {budget left n : Nat} (spent : n + left = budget) {p : Progress}
    (h : Follows model image n p) :
    Loop threshold (seeks budget) p (runToMarker threshold left p) := by
  induction left generalizing n p with
  | zero =>
    refine .done ?_
    rw [seeks, h.cycles, decide_eq_false (by omega), Bool.and_false]
  | succ left ih =>
    rw [runToMarker, h.faultless, Option.isSome_none, Bool.or_false]
    cases finished : p.finished with
    | true =>
      refine .done ?_
      rw [seeks, finished]
      rfl
    | false =>
      have next : Follows model image (n + 1) (Runner.advance threshold p) := h.advance
      refine .again ?_ next.faultless (ih (by omega) next)
      rw [seeks, finished, h.cycles, decide_eq_true (by omega)]
      rfl

/-- And so does the second, for what is under way makes no more calls than are ahead. -/
theorem loop_completeInstruction {limit n : Nat} {p : Progress} (h : Follows model image n p)
    (enough : ahead model image n ≤ limit) :
    Loop threshold completes p (completeInstruction threshold limit p) := by
  induction limit generalizing n p with
  | zero =>
    refine .done ?_
    rw [completes, h.cpu]
    cases boundary : (calls model image n).cpu.atBoundary with
    | true => rfl
    | false => exact absurd (ahead_succ_lt model image n boundary) (by omega)
  | succ limit ih =>
    rw [completeInstruction, h.faultless, Option.isSome_none, Bool.or_false]
    cases boundary : p.cpu.atBoundary with
    | true =>
      refine .done ?_
      rw [completes, boundary]
      rfl
    | false =>
      have next : Follows model image (n + 1) (Runner.advance threshold p) := h.advance
      have fewer := ahead_succ_lt model image n (h.cpu ▸ boundary)
      refine .again ?_ next.faultless (ih next (by omega))
      rw [completes, boundary]
      rfl

/-! ## How a run ends -/

/-- How a run ends: with the marker, or with the budget spent. -/
inductive Verdict (model : Model) (image : List UInt8) (budget : Nat) (q : Progress) : Prop
  /-- A call within the budget executes the marker for the first time, and is the last. -/
  | marked (k : Nat) (within : k < budget) (first : IsLeast {n | Marks model image n} k)
    (follows : Follows model image (k + 1) q)
  /-- None does, and a few calls more complete the instruction that the last one left. -/
  | spent (l : Nat) (unmarked : ∀ k < budget, ¬ Marks model image k)
    (inside : ∀ i < l, (calls model image (budget + i)).cpu.atBoundary = false)
    (boundary : (calls model image (budget + l)).cpu.atBoundary = true)
    (follows : Follows model image (budget + l) q) (unfinished : q.finished = false)

/-- The first loop ends behind the marker, or where the budget is spent. -/
theorem Loop.sought {budget : Nat} {p : Progress}
    (loop : Loop threshold (seeks budget) (start model (.ofImage image)) p) :
    (∃ k < budget, IsLeast {n | Marks model image n} k ∧ Follows model image (k + 1) p)
      ∨ (∀ k < budget, ¬ Marks model image k) ∧ Follows model image budget p := by
  obtain ⟨j, follows, stops, before⟩ := loop.follows (.start model image)
  rw [Nat.zero_add] at follows
  have going : ∀ i < j, i < budget ∧ ∀ k < i, ¬ Marks model image k := by
    intro i hi
    obtain ⟨p', follows', goes⟩ := before i hi
    rw [Nat.zero_add] at follows'
    rw [seeks, Bool.and_eq_true, Bool.not_eq_true', follows'.cycles, decide_eq_true_eq] at goes
    refine ⟨goes.2, fun k hk marks => ?_⟩
    exact Bool.true_eq_false.mp ((follows'.finished.2 ⟨k, hk, marks⟩).symm.trans goes.1)
  by_cases found : ∃ k < j, Marks model image k
  · obtain ⟨k, hk, marks⟩ := found
    -- the loop did not go on behind the first marker
    have last : k + 1 = j := by
      refine Nat.le_antisymm hk (Nat.le_of_not_lt fun later => ?_)
      exact (going (k + 1) later).2 k (Nat.lt_succ_self k) marks
    subst last
    refine .inl ⟨k, (going k hk).1, ⟨marks, fun i marks' => Nat.le_of_not_lt fun sooner => ?_⟩, follows⟩
    exact (going k hk).2 i sooner marks'
  · have unfinished : p.finished = false :=
      Bool.eq_false_iff.2 fun finished => found (follows.finished.1 finished)
    rw [seeks, unfinished, follows.cycles, Bool.not_false, Bool.true_and, decide_eq_false_iff_not]
      at stops
    have spent : j = budget := by
      refine Nat.le_antisymm (Nat.le_of_not_lt fun beyond => ?_) (Nat.le_of_not_lt stops)
      exact Nat.lt_irrefl budget (going budget beyond).1
    subst spent
    exact .inr ⟨fun k hk marks => found ⟨k, hk, marks⟩, follows⟩

/-- The second loop completes an instruction, and executes no marker. -/
theorem Loop.completed {n : Nat} {p q : Progress} (loop : Loop threshold completes p q)
    (h : Follows model image n p) :
    ∃ l, (∀ i < l, (calls model image (n + i)).cpu.atBoundary = false)
      ∧ (calls model image (n + l)).cpu.atBoundary = true ∧ Follows model image (n + l) q
      ∧ q.finished = p.finished := by
  obtain ⟨l, follows, stops, before⟩ := loop.follows h
  have inside : ∀ i < l, (calls model image (n + i)).cpu.atBoundary = false := by
    intro i hi
    obtain ⟨p', follows', goes⟩ := before i hi
    rw [completes, follows'.cpu, Bool.not_eq_true'] at goes
    exact goes
  rw [completes, follows.cpu, Bool.not_eq_false'] at stops
  refine ⟨l, inside, stops, follows, Bool.eq_iff_iff.2 ?_⟩
  rw [follows.finished, h.finished]
  constructor
  · rintro ⟨k, hk, marks⟩
    rcases Nat.lt_or_ge k n with before | later
    · exact ⟨k, before, marks⟩
    · obtain ⟨i, rfl⟩ := Nat.exists_eq_add_of_le later
      have boundary := ((marks_iff model image (n + i)).1 marks).1
      exact absurd (boundary.symm.trans (inside i (by omega))) Bool.true_eq_false.mp
  · rintro ⟨k, hk, marks⟩
    exact ⟨k, Nat.lt_of_lt_of_le hk (Nat.le_add_right n l), marks⟩

/-- A run of an image that fits goes through both loops and reports where they end. -/
theorem runImage_ends (threshold : Option Log.Level) (model : Model) (budget : Nat)
    {image : List UInt8} (fits : image.length ≤ addressSpace) :
    ∃ p q, Loop threshold (seeks budget) (start model (.ofImage image)) p
      ∧ Loop threshold completes p q
      ∧ (runImage threshold model budget image).result = .ok ⟨q.finished, q.cpu.cycles, q.cpu.regs⟩
      ∧ Verdict model image budget q := by
  let p := runToMarker threshold budget (start model (.ofImage image))
  let q := completeInstruction threshold longestInstruction p
  have first : Loop threshold (seeks budget) (start model (.ofImage image)) p :=
    loop_runToMarker (Nat.zero_add budget) (.start model image)
  obtain ⟨n, follows⟩ : ∃ n, Follows model image n p := by
    obtain ⟨n, follows, -⟩ := first.follows (.start model image)
    exact ⟨_, follows⟩
  have second : Loop threshold completes p q :=
    loop_completeInstruction follows (Nat.le_succ_of_le (ahead_le model image n))
  have verdict : Verdict model image budget q := by
    rcases first.sought with ⟨k, within, earliest, follows⟩ | ⟨unmarked, follows⟩
    · obtain ⟨l, inside, -, follows', -⟩ := second.completed follows
      cases l with
      | zero => exact .marked k within earliest follows'
      | succ l =>
        have boundary := atBoundary_of_marks model image k earliest.1
        exact absurd (boundary.symm.trans (inside 0 (Nat.succ_pos l))) Bool.true_eq_false.mp
    · obtain ⟨l, inside, boundary, follows', same⟩ := second.completed follows
      refine .spent l unmarked inside boundary follows' (same.trans ?_)
      refine Bool.eq_false_iff.2 fun finished => ?_
      obtain ⟨k, hk, marks⟩ := follows.finished.1 finished
      exact unmarked k hk marks
  refine ⟨p, q, first, second, ?_, verdict⟩
  have faultless : (complete threshold model budget (.ofImage image)).fault = none := by
    cases verdict with
    | marked _ _ _ follows => exact follows.faultless
    | spent _ _ _ _ follows => exact follows.faultless
  rw [runImage, Memory.load_zero fits]
  dsimp only
  rw [faultless]
  rfl

/-- An image that does not fit is refused. -/
theorem runImage_refuses (threshold : Option Log.Level) (model : Model) (budget : Nat)
    {image : List UInt8} (long : addressSpace < image.length) :
    (runImage threshold model budget image).result = .error (.tooLarge image.length) := by
  have exceeds : ¬ (0 : UInt16).toNat + image.length ≤ addressSpace :=
    Nat.not_le.2 (Nat.lt_of_lt_of_le long (Nat.le_add_left _ _))
  rw [runImage, Memory.load, if_neg exceeds]

/-- What is promised of every run. -/
structure Stops (threshold : Option Log.Level) (model : Model) (budget : Nat)
    (image : List UInt8) : Prop where
  /-- There is no report exactly if the image is too large, and then that is said. -/
  refused : ∀ e, (runImage threshold model budget image).result = .error e
    ↔ addressSpace < image.length ∧ e = .tooLarge image.length
  /-- Otherwise both loops come to their ends without a fault, and it is reported where. -/
  loops : image.length ≤ addressSpace →
    ∃ p q, Loop threshold (seeks budget) (start model (.ofImage image)) p
      ∧ Loop threshold completes p q
      ∧ (runImage threshold model budget image).result = .ok ⟨q.finished, q.cpu.cycles, q.cpu.regs⟩
  /-- A run that came to the marker has kept to its budget.  One that did not has spent it, and at most
  five machine cycles more. -/
  bounded : ∀ r, (runImage threshold model budget image).result = .ok r →
    if r.finished then r.cycles ≤ budget else budget ≤ r.cycles ∧ r.cycles ≤ budget + 5
  /-- Without a budget there is no call. -/
  idle : ∀ r, (runImage threshold model 0 image).result = .ok r → r.cycles = 0

/-- What has ended has kept to these bounds. -/
theorem Verdict.bounded {budget : Nat} {q : Progress} (h : Verdict model image budget q) :
    if q.finished then q.cpu.cycles ≤ budget
      else budget ≤ q.cpu.cycles ∧ q.cpu.cycles ≤ budget + 5 := by
  cases h with
  | marked k within first follows =>
    rw [follows.finished.2 ⟨k, Nat.lt_succ_self k, first.1⟩, if_pos rfl, follows.cycles]
    exact within
  | spent l _ inside _ follows unfinished =>
    rw [unfinished, if_neg Bool.false_ne_true, follows.cycles]
    have := length_inside_le model image budget l inside
    omega

/-- A run without a budget makes no call, for a new processor is at a boundary. -/
theorem Verdict.idle {q : Progress} (h : Verdict model image 0 q) : q.cpu.cycles = 0 := by
  cases h with
  | marked k within => exact absurd within (Nat.not_lt_zero k)
  | spent l _ inside _ follows _ =>
    cases l with
    | zero => exact follows.cycles
    | succ l => exact absurd (inside 0 (Nat.succ_pos l)) Bool.true_eq_false.mp

/-- Every run of every image on every model comes to its end. -/
theorem runImage_stops (threshold : Option Log.Level) (model : Model) (budget : Nat)
    (image : List UInt8) : Stops threshold model budget image := by
  rcases Nat.lt_or_ge addressSpace image.length with long | fits
  · have refused (budget : Nat) := runImage_refuses threshold model budget long
    refine ⟨fun e => ?_, fun fits => absurd long (Nat.not_lt.2 fits), fun r h => ?_, fun r h => ?_⟩
    · rw [refused]
      exact ⟨fun same => ⟨long, (Except.error.inj same).symm⟩, fun ⟨_, same⟩ => same ▸ rfl⟩
    · cases (refused budget).symm.trans h
    · cases (refused 0).symm.trans h
  · obtain ⟨p, q, first, second, result, verdict⟩ := runImage_ends threshold model budget fits
    refine ⟨fun e => ?_, fun _ => ⟨p, q, first, second, result⟩, fun r h => ?_, fun r h => ?_⟩
    · rw [result]
      exact iff_of_false (fun h => nomatch h) fun h => absurd h.1 (Nat.not_lt.2 fits)
    · cases result.symm.trans h
      exact verdict.bounded
    · obtain ⟨_, q₀, -, -, result₀, verdict₀⟩ := runImage_ends threshold model 0 fits
      cases result₀.symm.trans h
      exact verdict₀.idle

end Runner

end Sm83
