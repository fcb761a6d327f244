import Sm83.Proofs.Interrupts.History
import Sm83.Proofs.Run.Accesses

/-!
# Requests are served once

A peripheral raises an interrupt by reading the request register and writing it back with a bit more;
the processor withdraws one by reading the register and writing it back with a bit less.  Between a
peripheral's and the processor's turns neither is under way, so neither undoes what the other did.

* `Interleaving` — calls on a flat memory and requests in any order.  Programs that write to the request
  register themselves are left out.
* `Served` — what it takes to serve a line, and what serving it does to memory.
* `Cpu.Sound.step_requests` — a call withdraws the request that it serves, and no other call changes the
  register.
* `Interleaving.kept` — the register holds the requests that have not been served since.
-/

namespace Sm83

open Bus (Recorded)

/-! ## Bits of the register -/

namespace InterruptSet

/-- The set of one line. -/
def line (k : Nat) : InterruptSet := ⟨UInt8.ofNat (1 <<< k)⟩

theorem has_eq_getLsbD (s : InterruptSet) (k : Nat) : s.has k = s.bits.toBitVec.getLsbD k := rfl

theorem has_or (b b' : UInt8) (k : Nat) : has ⟨b ||| b'⟩ k = (has ⟨b⟩ k || has ⟨b'⟩ k) := by
  rw [has_eq_getLsbD, UInt8.toBitVec_or, BitVec.getLsbD_or]
  rfl

/-- Bits that are taken out of a byte. -/
theorem has_and_not (b b' : UInt8) (k : Nat) : has ⟨b &&& ~~~b'⟩ k = (has ⟨b⟩ k && !has ⟨b'⟩ k) := by
  rw [has_eq_getLsbD, UInt8.toBitVec_and, UInt8.toBitVec_not, BitVec.getLsbD_and, BitVec.getLsbD_not]
  show (b.toBitVec.getLsbD k && _) = (b.toBitVec.getLsbD k && !b'.toBitVec.getLsbD k)
  by_cases inside : k < 8
  · rw [decide_eq_true inside, Bool.true_and]
  · rw [BitVec.getLsbD_of_ge _ _ (Nat.le_of_not_lt inside), Bool.false_and, Bool.false_and]

theorem has_line {k : Nat} (h : k < 5) (j : Nat) : (line k).has j = (j == k) := by
  have byte : 2 ^ k < 2 ^ 8 := Nat.pow_lt_pow_right (by decide) (by omega)
  rw [line, has, UInt8.toNat_ofNat', Nat.one_shiftLeft, Nat.mod_eq_of_lt byte, Nat.testBit_two_pow,
    beq_eq_decide, decide_eq_decide]
  exact eq_comm

/-- Of the lines that two bytes have in common the lowest is served first. -/
theorem first?_and {b b' : UInt8} {s : InterruptSet} (h : (ofByte (b &&& b')).first? = some s) :
    ∃ k < 5, s = line k ∧ (has ⟨b⟩ k = true ∧ has ⟨b'⟩ k = true)
      ∧ ∀ j < k, ¬ (has ⟨b⟩ j = true ∧ has ⟨b'⟩ j = true) := by
  have table : ∀ c : UInt8, ∀ s ∈ (ofByte c).first?,
      ∃ k < 5, s = line k ∧ has ⟨c⟩ k = true ∧ ∀ j < k, ¬ has ⟨c⟩ j = true :=
    forall_byte (by decide +kernel)
  have both (j : Nat) : has ⟨b &&& b'⟩ j = true ↔ has ⟨b⟩ j = true ∧ has ⟨b'⟩ j = true := by
    rw [has_eq_getLsbD, UInt8.toBitVec_and, BitVec.getLsbD_and, Bool.and_eq_true]
    rfl
  simpa only [both] using table _ s h

end InterruptSet

/-! ## What happens to requests -/

/-- The requests that memory holds. -/
def Memory.requested (mem : Memory) : InterruptSet := ⟨mem.get requestAddress⟩

/-- The lines that memory enables. -/
def Memory.enabled (mem : Memory) : InterruptSet := ⟨mem.get enableAddress⟩

/-- Something that happens to requests. -/
inductive RequestEvent
  /-- A peripheral raises requests. -/
  | raised (lines : InterruptSet)
  /-- The processor serves one. -/
  | served (line : InterruptSet)

namespace RequestEvent

/-- Whether line `k` is requested. -/
def requests (k : Nat) : RequestEvent → Bool
  | raised lines => lines.has k
  | served _ => false

/-- Whether line `k` is served. -/
def serves (k : Nat) : RequestEvent → Bool
  | raised _ => false
  | served line => line.has k

end RequestEvent

/-- What an event is to requests. -/
def Event.serving? : Event → Option RequestEvent
  | .dispatched line _ _ _ _ => some (.served line)
  | _ => none

/-- The requests that were served. -/
def servings (events : List Event) : List RequestEvent := events.filterMap Event.serving?

/-- They are among the milestones. -/
theorem servings_milestones (events : List Event) :
    servings (milestones events) = servings events := by
  have milestone (e : Event) : (if e.isMilestone then e.serving? else none) = e.serving? := by
    cases e with
    | decoded table opcode address => cases table <;> rfl
    | _ => rfl
  rw [servings, milestones, List.filterMap_filter]
  exact congrArg (List.filterMap · events) (funext milestone)

/-- Calls on a flat memory and requests, in any order, from memory `start` on.  What was raised and
served since then is kept. -/
inductive Interleaving (start : Memory) : List RequestEvent → Cpu → Memory → Prop
  | start {cpu : Cpu} (h : Reachable cpu) : Interleaving start [] cpu start
  | request {past : List RequestEvent} {cpu : Cpu} {mem : Memory} (h : Interleaving start past cpu mem)
    (lines : InterruptSet) : Interleaving start (past ++ [.raised lines]) cpu (Bus.request lines mem)
  /-- Neither an instruction nor the pushes of a dispatch write to the request register. -/
  | call {past : List RequestEvent} {cpu : Cpu} {mem : Memory} (h : Interleaving start past cpu mem)
    (leaves : cpu.atBoundary = false → ∀ value,
      .write requestAddress value ∉ (cpu.step (Recorded.mk [] mem)).bus.accesses) :
    Interleaving start (past ++ servings (cpu.step mem).events) (cpu.step mem).cpu (cpu.step mem).bus

theorem Interleaving.reachable {start : Memory} {past : List RequestEvent} {cpu : Cpu} {mem : Memory}
    (h : Interleaving start past cpu mem) : Reachable cpu := by
  induction h with
  | start h => exact h
  | request _ _ ih => exact ih
  | @call _ _ mem _ _ ih => exact ih.step mem

/-! ## One call -/

/-- Line `k` is served: it is the first of those that are requested and enabled at this boundary, and
its request alone is withdrawn. -/
structure Served (k : Nat) (cpu : Cpu) (mem mem' : Memory) : Prop where
  boundary : cpu.atBoundary = true
  isLine : k < 5
  present : mem.requested.has k = true ∧ mem.enabled.has k = true
  first : ∀ j < k, ¬ (mem.requested.has j = true ∧ mem.enabled.has j = true)
  withdrawn : ∀ j, mem'.requested.has j = (mem.requested.has j && !(j == k))
  frame : ∀ a, a ≠ requestAddress → mem'.get a = mem.get a

/-- What a call does to requests. -/
inductive Withdraws (cpu : Cpu) (mem : Memory) (o : Outcome Memory) : Prop
  /-- It leaves them. -/
  | nothing (passed : servings o.events = []) (kept : o.bus.requested = mem.requested)
  /-- It serves one. -/
  | one (k : Nat) (passed : servings o.events = [.served (.line k)]) (served : Served k cpu mem o.bus)

/-- Polling memory leaves it, and answers the same the next time. -/
theorem Memory.poll_eq (mem : Memory) :
    Bus.poll mem = (.ofByte (mem.get enableAddress &&& mem.get requestAddress), mem) := rfl

theorem Memory.polling_eq (mem : Memory) :
    Bus.polling mem = [.read enableAddress (mem.get enableAddress),
      .read requestAddress (mem.get requestAddress)] := rfl

/-- A demand that is met in memory changes the address that it writes to. -/
theorem Memory.get_meet {d : Option Demand} {mem : Memory} {a : UInt16}
    (elsewhere : ∀ value, Bus.Access.write a value ∉ Demand.accesses d mem) :
    (Demand.meet d mem).get a = mem.get a := by
  match d with
  | none | some (.read b) => rfl
  | some (.write b value) =>
    refine mem.get_set_of_ne value ?_
    rintro rfl
    exact elsewhere value List.mem_cons_self

/-- The demand of a fetch reads. -/
theorem Memory.busFetched_eq (cpu : Cpu) (mem : Memory) : busFetched cpu mem = mem := by
  rw [busFetched, Demand.unlessSwitch]
  split <;> rfl

section Call

variable {cpu : Cpu} {mem : Memory}

/-- A call that passes no dispatch and leaves the register as it was. -/
theorem Withdraws.of_upshot {gate : Gate} {halted : Bool} {passed : List Event} {mem' : Memory}
    (came : (cpu.step mem).upshot = ⟨gate, halted, passed, mem'⟩) (none : servings passed = [])
    (kept : mem'.requested = mem.requested) : Withdraws cpu mem (cpu.step mem) := by
  have events : milestones (cpu.step mem).events = passed := congrArg Upshot.milestones came
  have bus : (cpu.step mem).bus = mem' := congrArg Upshot.bus came
  exact .nothing (by rw [← servings_milestones, events, none]) (by rw [bus, kept])

/-- Where an interrupt is served on a memory, the acknowledge finds what the boundary found. -/
theorem Cpu.Sound.step_serves (h : cpu.Sound) (boundary : cpu.suspended = none)
    (serves : cpu.serves mem = true) :
    ∃ k, servings (cpu.step mem).events = [.served (.line k)]
      ∧ Served k cpu mem (cpu.step mem).bus := by
  -- reading leaves memory as it is, so the poll of the acknowledge is that of the boundary
  obtain ⟨line, present⟩ := Cpu.first?_of_serves serves
  obtain ⟨-, came⟩ := h.step_serving boundary serves present
  obtain ⟨k, isLine, rfl, ⟨enabled, requested⟩, first⟩ := InterruptSet.first?_and present
  have events : milestones (cpu.step mem).events = [_] := congrArg Upshot.milestones came
  have bus : (cpu.step mem).bus = mem.set requestAddress
      (mem.get requestAddress &&& ~~~(InterruptSet.line k).bits) := congrArg Upshot.bus came
  refine ⟨k, by rw [← servings_milestones, events]; rfl, ?_⟩
  refine ⟨Cpu.atBoundary_eq_true_iff.2 boundary, isLine, ⟨requested, enabled⟩, ?_, ?_, ?_⟩
  · exact fun j lower both => first j lower ⟨both.2, both.1⟩
  · intro j
    rw [bus, Memory.requested, Memory.get_set, InterruptSet.has_and_not, InterruptSet.has_line isLine]
    rfl
  · intro a other
    rw [bus, mem.get_set_of_ne _ fun same => other same.symm]

/-- A call withdraws the request that it serves.  No other call changes the register, unless an
instruction writes to it. -/
theorem Cpu.Sound.step_requests (h : cpu.Sound)
    (leaves : cpu.atBoundary = false → ∀ value,
      .write requestAddress value ∉ (cpu.step (Recorded.mk [] mem)).bus.accesses) :
    Withdraws cpu mem (cpu.step mem) := by
  cases under : cpu.suspended with
  | some s =>
    have inside := Cpu.atBoundary_eq_false_iff.2 ⟨s, under⟩
    refine .of_upshot (h.step_inside under mem).2 rfl
      (congrArg InterruptSet.mk (Memory.get_meet ?_))
    rw [← (h.accesses_inside inside mem).2]
    exact leaves inside
  | none =>
    cases halted : cpu.halted with
    | true => exact .of_upshot (Cpu.step_idling under halted mem).2 rfl rfl
    | false =>
      cases serves : cpu.serves mem with
      | true =>
        obtain ⟨k, passed, served⟩ := h.step_serves under serves
        exact .one k passed served
      | false =>
        have same : (busFetched cpu mem).requested = mem.requested := by rw [Memory.busFetched_eq]
        by_cases halts : Instruction.ofOpcode (opcodeFetched cpu mem) = .halt
        · exact .of_upshot (h.step_halting under halted serves halts).2 rfl same
        · exact .of_upshot (h.step_fetching under halted serves halts).2 rfl same

end Call

/-! ## Whole interleavings -/

/-- Line `k` was requested and has not been served since. -/
def Outstanding (k : Nat) (past : List RequestEvent) : Prop :=
  Lasts (fun e _ => e.requests k = true) (RequestEvent.serves k) past

theorem outstanding_append_singleton (k : Nat) (past : List RequestEvent) (e : RequestEvent) :
    Outstanding k (past ++ [e])
      ↔ e.requests k = true ∨ e.serves k = false ∧ Outstanding k past := by
  rw [Outstanding, lasts_append_singleton]
  rfl

/-- Raising requests adds them to the register. -/
theorem Memory.get_request (lines : InterruptSet) (mem : Memory) :
    (Bus.request lines mem).get requestAddress = mem.get requestAddress ||| lines.bits :=
  get_set ..

theorem Memory.get_request_of_ne (lines : InterruptSet) (mem : Memory) {a : UInt16}
    (other : requestAddress ≠ a) : (Bus.request lines mem).get a = mem.get a :=
  get_set_of_ne mem _ other

theorem Memory.requested_request (lines : InterruptSet) (mem : Memory) (k : Nat) :
    (Bus.request lines mem).requested.has k = (mem.requested.has k || lines.has k) := by
  rw [requested, get_request, InterruptSet.has_or]
  rfl

/-- What is promised of an interleaving that has come to `cpu` and `mem`. -/
structure Kept (start : Memory) (past : List RequestEvent) (cpu : Cpu) (mem : Memory) : Prop where
  /-- The register holds the outstanding requests.  What it held at first was raised before all
  else. -/
  register : ∀ k, mem.requested.has k = true ↔ Outstanding k (.raised start.requested :: past)
  /-- No line is served more often than it was requested. -/
  once : ∀ k, past.countP (RequestEvent.serves k)
    ≤ past.countP (RequestEvent.requests k) + if start.requested.has k then 1 else 0
  /-- An interrupt that the next call starts to serve is served in its turn. -/
  served : ∀ line pc sp requested enabled,
    .dispatched line pc sp requested enabled ∈ (cpu.step mem).events →
      ∃ k, line = .line k ∧ Served k cpu mem (cpu.step mem).bus
  /-- And found where it is acknowledged. -/
  faultless : (cpu.step mem).fault = none

section Run

variable {start mem : Memory} {past : List RequestEvent} {cpu : Cpu}

/-- The register holds the outstanding requests. -/
theorem Interleaving.requested_iff (h : Interleaving start past cpu mem) (k : Nat) :
    mem.requested.has k = true ↔ Outstanding k (.raised start.requested :: past) := by
  induction h with
  | start h =>
    show _ ↔ Outstanding k ([] ++ [_])
    rw [outstanding_append_singleton, or_iff_left fun h => not_lasts_nil _ _ h.2]
    rfl
  | request _ lines ih =>
    rw [Memory.requested_request, Bool.or_eq_true, ih, ← List.cons_append,
      outstanding_append_singleton, or_comm]
    exact or_congr_right (and_iff_right rfl).symm
  | call h leaves ih =>
    rcases h.reachable.sound.step_requests leaves with ⟨passed, kept⟩ | ⟨j, passed, served⟩
    · rw [passed, List.append_nil, kept, ih]
    · rw [passed, served.withdrawn, ← List.cons_append, outstanding_append_singleton, ← ih,
        RequestEvent.serves, InterruptSet.has_line served.isLine, Bool.and_eq_true, Bool.not_eq_true',
        and_comm]
      exact (or_iff_right Bool.false_ne_true).symm

/-- Each request pays for one service, and those that the register holds are still to be paid out. -/
theorem Interleaving.countP_serves (h : Interleaving start past cpu mem) (k : Nat) :
    past.countP (RequestEvent.serves k) + (mem.requested.has k).toNat
      ≤ past.countP (RequestEvent.requests k) + (start.requested.has k).toNat := by
  induction h with
  | start h => exact Nat.le_refl _
  | @request past _ mem _ lines ih =>
    have raised : List.countP (RequestEvent.serves k) [.raised lines] = 0
        ∧ List.countP (RequestEvent.requests k) [.raised lines] = (lines.has k).toNat := by
      refine ⟨rfl, ?_⟩
      rw [List.countP_singleton, RequestEvent.requests]
      cases lines.has k <;> rfl
    have most : (mem.requested.has k || lines.has k).toNat
        ≤ (mem.requested.has k).toNat + (lines.has k).toNat := by
      cases mem.requested.has k <;> cases lines.has k <;> decide
    rw [Memory.requested_request, List.countP_append, List.countP_append, raised.1, raised.2]
    omega
  | @call past cpu mem h leaves ih =>
    rcases h.reachable.sound.step_requests leaves with ⟨passed, kept⟩ | ⟨j, passed, served⟩
    · rw [passed, List.append_nil, kept]
      exact ih
    · -- the bit that goes from the register pays for the service
      have paid : List.countP (RequestEvent.serves k) [.served (.line j)]
            + (mem.requested.has k && !(k == j)).toNat = (mem.requested.has k).toNat := by
        rw [List.countP_singleton, RequestEvent.serves, InterruptSet.has_line served.isLine]
        cases same : k == j with
        | true =>
          rw [eq_of_beq same, served.present.1]
          rfl
        | false => rw [if_neg Bool.false_ne_true, Bool.not_false, Bool.and_true, Nat.zero_add]
      have requests : List.countP (RequestEvent.requests k) [.served (.line j)] = 0 := rfl
      rw [passed, served.withdrawn, List.countP_append, List.countP_append, requests]
      omega

/-- A call that starts to serve an interrupt serves the first line that it can. -/
theorem Cpu.Sound.served_of_dispatched (h : cpu.Sound) {line : InterruptSet} {pc sp : UInt16}
    {requested enabled : UInt8}
    (dispatched : .dispatched line pc sp requested enabled ∈ (cpu.step mem).events) :
    ∃ k, line = .line k ∧ Served k cpu mem (cpu.step mem).bus := by
  have member : RequestEvent.served line ∈ servings (cpu.step mem).events :=
    List.mem_filterMap.2 ⟨_, dispatched, rfl⟩
  cases under : cpu.suspended with
  | some s =>
    obtain ⟨-, came⟩ := h.step_inside under mem
    have passed : milestones (cpu.step mem).events = [] := congrArg Upshot.milestones came
    rw [← servings_milestones, passed] at member
    exact absurd member List.not_mem_nil
  | none =>
    have outside : cpu.atBoundary ≠ false :=
      Cpu.atBoundary_eq_true_iff.2 under ▸ Bool.true_eq_false.mp
    rcases h.step_requests fun inside => absurd inside outside with
      ⟨passed, -⟩ | ⟨k, passed, served⟩
    · rw [passed] at member
      exact absurd member List.not_mem_nil
    · rw [passed] at member
      cases List.mem_singleton.1 member
      exact ⟨k, rfl, served⟩

/-- No call on a memory fails: what the boundary found is there for the acknowledge. -/
theorem Cpu.Sound.step_memory_faultless (h : cpu.Sound) (mem : Memory) :
    (cpu.step mem).fault = none := by
  rcases (h.ended mem).fault with ⟨none, -⟩ | ⟨-, ⟨-, serves, gone⟩, -⟩
  · exact none
  · have gone : (Bus.poll mem).1.isEmpty = true := gone
    rw [Cpu.serves, gone, Bool.not_true, Bool.and_false] at serves
    cases serves

/-- However calls and requests are interleaved, no request is lost and none is served twice. -/
theorem Interleaving.kept (h : Interleaving start past cpu mem) : Kept start past cpu mem := by
  have sound := h.reachable.sound
  refine ⟨h.requested_iff, fun k => ?_, fun _ _ _ _ _ => sound.served_of_dispatched,
    sound.step_memory_faultless mem⟩
  have paid := h.countP_serves k
  have initially : (start.requested.has k).toNat = if start.requested.has k then 1 else 0 := by
    cases start.requested.has k <;> rfl
  rw [initially] at paid
  exact Nat.le_of_add_right_le paid

end Run

/-- Memory that enables the first line and holds no request. -/
def firstEnabled : Memory := .set .zero enableAddress 0x01

/-- The same with the first line requested. -/
def firstRaised : Memory := Bus.request ⟨0x01⟩ firstEnabled

/-- A processor that has interrupts enabled. -/
def listening : Cpu := { Cpu.new .dmg true with ime := true }

/-- A request is raised, and the next call serves it. -/
theorem Interleaving.kept_served :
    Interleaving firstEnabled [.raised ⟨0x01⟩, .served (.line 0)] (listening.step firstRaised).cpu
        (listening.step firstRaised).bus
      ∧ Kept firstEnabled [.raised ⟨0x01⟩, .served (.line 0)] (listening.step firstRaised).cpu
        (listening.step firstRaised).bus := by
  have zero (a : UInt16) : Memory.zero.get a = 0 := Vector.getElem_replicate _
  have requested : firstRaised.get requestAddress = 0x01 := by
    rw [firstRaised, Memory.get_request, firstEnabled, Memory.get_set_of_ne _ _ (by decide), zero]
    decide
  have enabled : firstRaised.get enableAddress = 0x01 := by
    rw [firstRaised, Memory.get_request_of_ne _ _ (by decide), firstEnabled, Memory.get_set]
  have reachable : Reachable listening := .setIme (.new .dmg true) true
  have serves : listening.serves firstRaised = true := by
    rw [Cpu.serves, Memory.poll_eq, requested, enabled]
    decide
  obtain ⟨k, passed, served⟩ := reachable.sound.step_serves rfl serves
  have first : (InterruptSet.line 0).has k = true := by
    have present := served.present.1
    rwa [Memory.requested, requested] at present
  obtain rfl : k = 0 := eq_of_beq ((InterruptSet.has_line (by decide) k).symm.trans first)
  have raised : Interleaving firstEnabled [.raised ⟨0x01⟩] listening firstRaised :=
    (Interleaving.start reachable).request ⟨0x01⟩
  have later := raised.call fun inside => absurd inside Bool.noConfusion
  rw [passed] at later
  exact ⟨later, Interleaving.kept later⟩

end Sm83
