import Sm83.Proofs.Run.Timing
import Sm83.Proofs.Run.Upshot

/-!
# Every instruction comes to its end

However a host has changed the registers in the meantime, an instruction under way, or an interrupt
that is being served, is over after a few calls.  `Timed` counts the machine cycles exactly, but only
along the way that the flags decide on.  Here it is enough to count the longer way.

* `Position.cyclesAhead` — as many machine cycles as can still be to come.
* `Cpu.Sound.cyclesAhead_lt` — a call leaves fewer.
* `Cpu.Sound.toBoundary_induction` — what calls on the way to the next boundary keep.
* `Cpu.Sound.toBoundary_sound`, `Cpu.Sound.toBoundary_longest` — so going on reaches a boundary, and no
  call fails on the way.
-/

namespace Sm83

open Machine

/-! ## The longer way -/

/-- The machine cycles that can follow a row with this ending. -/
def Ending.cyclesAhead : Ending → Nat
  | .decode => 5
  | .exit .retire => 0
  | .exit (.branch _ taken _) => cyclesIn taken
  | .exit .prefixed => 2

namespace Position

/-- The machine cycles that can follow from a position to the end of the instruction. -/
def cyclesAhead (p : Position) : Nat := cyclesIn p.steps + p.ending.cyclesAhead

end Position

theorem Instruction.cyclesAhead_le (i : Instruction) : i.microprogram.position.cyclesAhead ≤ 5 := by
  cases i with
  | load dst src => cases dst <;> cases src <;> exact Nat.le_of_ble_eq_true rfl
  | loadImmediate place | modify op place => cases place <;> exact Nat.le_of_ble_eq_true rfl
  | storeA pointer | loadA pointer => cases pointer <;> exact Nat.le_of_ble_eq_true rfl
  | accumulate op src =>
    rcases src with (r | _) | _ <;> cases op <;> exact Nat.le_of_ble_eq_true rfl
  | _ => exact Nat.le_of_ble_eq_true rfl

theorem PrefixedInstruction.cyclesIn_le (i : PrefixedInstruction) : cyclesIn i.steps ≤ 2 := by
  cases i with
  | modify op place | testBit n place => cases place <;> exact Nat.le_of_ble_eq_true rfl

namespace Position

/-- A move leaves no more of them, and fewer if it is one. -/
theorem Successor.cyclesAhead_le {p q : Position} (h : Successor p q) :
    q.cyclesAhead + (if p.waiting then 1 else 0) ≤ p.cyclesAhead := by
  cases h with
  | step s rest ending =>
    have one : (if Position.waiting ⟨s :: rest, ending⟩ then 1 else 0)
        = if s.takesCycle then 1 else 0 := by
      cases s <;> rfl
    show cyclesIn rest + ending.cyclesAhead + _ ≤ cyclesIn (s :: rest) + ending.cyclesAhead
    rw [one, cyclesIn_cons]
    omega
  | decode opcode => exact (Instruction.ofOpcode opcode).cyclesAhead_le
  | branch condition taken leftover =>
    show cyclesIn taken + 0 + 0 ≤ 0 + cyclesIn taken
    omega
  | prefixed opcode => exact (PrefixedInstruction.ofOpcode opcode).cyclesIn_le

/-- Where a machine cycle is waited for, there is one. -/
theorem cyclesAhead_pos {p : Position} (waits : p.waiting = true) : 0 < p.cyclesAhead := by
  obtain ⟨steps, ending⟩ := p
  match steps, waits with
  | .cycle c :: rest, _ =>
    rw [cyclesAhead, cyclesIn_cons]
    exact Nat.lt_of_lt_of_le (Nat.succ_pos _) (Nat.le_add_right _ _)

/-- Nothing on the microcode takes longer than the longest instruction. -/
theorem OnMicrocode.cyclesAhead_le {p : Position} (h : p.OnMicrocode) :
    p.cyclesAhead ≤ longestInstruction := by
  obtain ⟨row, hr, hs⟩ := h
  have shorter : p.cyclesAhead ≤ (Position.mk row p.ending).cyclesAhead :=
    Nat.add_le_add_right (hs.sublist.countP_le) _
  refine Nat.le_trans shorter ?_
  generalize p.ending = ending at hr
  cases hr with
  | fetch | interrupt => exact Nat.le_of_ble_eq_true rfl
  | instruction i => exact Nat.le_succ_of_le i.cyclesAhead_le
  | taken i condition steps leftover branches =>
    have within := i.cyclesAhead_le
    rw [Microprogram.position, branches, cyclesAhead, Ending.cyclesAhead] at within
    exact Nat.le_trans (Nat.le_add_left _ _) (Nat.le_succ_of_le within)
  | prefixed i => exact Nat.le_trans i.cyclesIn_le (by decide)

/-- What waits for a machine cycle has had its first. -/
theorem OnMicrocode.cyclesAhead_lt {s : Suspension} (h : s.position.OnMicrocode) :
    s.position.cyclesAhead < longestInstruction := by
  refine Nat.lt_succ_of_le (h.of_rows
    (C := fun steps ending => (Position.mk steps ending).cyclesAhead ≤ 5) ?_ ?_ ?_ ?_ ?_)
  · intro row steps ending within suffix
    exact Nat.le_trans (Nat.add_le_add_right suffix.sublist.countP_le _) within
  · exact fun i _ _ => i.cyclesAhead_le
  · intro i condition steps leftover branches
    have within := i.cyclesAhead_le
    rw [Microprogram.position, branches, cyclesAhead, Ending.cyclesAhead] at within
    exact Nat.le_trans (Nat.le_add_left _ _) within
  · exact fun i => Nat.le_trans i.cyclesIn_le (by decide)
  · exact Nat.le_of_ble_eq_true rfl

end Position

/-! ## Calls on the way -/

section Calls

variable {β : Type} [Bus β]

/-- At a moment of a call, with the machine cycle that the call is still to make, there are as many
ahead as there were when it began, at most. -/
theorem Moment.cyclesAhead_le {m₀ m : Machine β} {k : Nat} {p : Position} {s : Suspension}
    (h : Moment m₀ k p m) (under : m₀.cpu.suspended = some s) :
    p.cyclesAhead + 1 ≤ s.position.cyclesAhead + k := by
  induction h with
  | entered begins =>
    rw [enter_of_suspended under] at begins
    cases begins
    exact Nat.le_refl _
  | moved _ _ move ih =>
    have fewer := (Position.successor_of_advance move).cyclesAhead_le
    omega
  | ticked _ waits move ih =>
    have fewer := (Position.successor_of_advance move).cyclesAhead_le
    rw [if_pos waits] at fewer
    omega

/-- A call leaves fewer machine cycles ahead. -/
theorem Cpu.Sound.cyclesAhead_lt {cpu : Cpu} {s s' : Suspension} (h : cpu.Sound)
    (under : cpu.suspended = some s) {bus : β} (left : (cpu.step bus).cpu.suspended = some s') :
    s'.position.cyclesAhead < s.position.cyclesAhead := by
  obtain ⟨m, moment, -⟩ := (h.ended bus).last s' left
  exact moment.cyclesAhead_le under

/-- One call more inside an instruction leaves things sound and does not fail. -/
theorem Cpu.Sound.next_of_inside {o : Outcome β} {s : Suspension} (h : o.cpu.Sound)
    (faultless : o.fault = none) (under : o.cpu.suspended = some s) :
    o.next.cpu.Sound ∧ o.next.fault = none := by
  rw [Outcome.next_of_faultless faultless]
  exact ⟨h.step o.bus, (h.step_inside under o.bus).1⟩

/-- Calls up to the next boundary, one after the other. -/
theorem Cpu.Sound.toBoundary_induction {P : Nat → Outcome β → Prop}
    (stopped : ∀ o, o.cpu.Sound → o.fault = none → P 0 o)
    (arrived : ∀ limit o, o.cpu.Sound → o.fault = none → o.cpu.atBoundary = true → P limit o)
    (inside : ∀ limit o s, o.cpu.Sound → o.fault = none → o.cpu.suspended = some s →
      P limit o.next → P (limit + 1) o)
    {o : Outcome β} (h : o.cpu.Sound) (faultless : o.fault = none) (limit : Nat) : P limit o := by
  induction limit generalizing o with
  | zero => exact stopped o h faultless
  | succ limit ih =>
    cases under : o.cpu.suspended with
    | none => exact arrived _ o h faultless (Cpu.atBoundary_eq_true_iff.2 under)
    | some s =>
      obtain ⟨sound, faultless'⟩ := h.next_of_inside faultless under
      exact inside limit o s h faultless under (ih sound faultless')

/-- They leave things sound and do not fail. -/
theorem Cpu.Sound.toBoundary_sound {o : Outcome β} (h : o.cpu.Sound) (faultless : o.fault = none)
    (limit : Nat) : (o.toBoundary limit).cpu.Sound ∧ (o.toBoundary limit).fault = none := by
  refine toBoundary_induction
    (P := fun limit o => (o.toBoundary limit).cpu.Sound ∧ (o.toBoundary limit).fault = none)
    ?_ ?_ ?_ h faultless limit
  · exact fun o sound faultless => ⟨sound, faultless⟩
  · intro limit o sound faultless boundary
    rw [Outcome.toBoundary_of_boundary boundary]
    exact ⟨sound, faultless⟩
  · intro limit o s _ faultless under later
    rw [Outcome.toBoundary_of_inside faultless (Cpu.atBoundary_eq_false_iff.2 ⟨s, under⟩)]
    exact later

/-- With a call for each machine cycle that is ahead the boundary is reached. -/
theorem Cpu.Sound.toBoundary_atBoundary {o : Outcome β} (h : o.cpu.Sound) (faultless : o.fault = none)
    {limit : Nat} (enough : ∀ s, o.cpu.suspended = some s → s.position.cyclesAhead ≤ limit) :
    (o.toBoundary limit).cpu.atBoundary = true := by
  refine toBoundary_induction
    (P := fun limit o => (∀ s, o.cpu.suspended = some s → s.position.cyclesAhead ≤ limit) →
      (o.toBoundary limit).cpu.atBoundary = true) ?_ ?_ ?_ h faultless limit enough
  · intro o _ _ enough
    refine Cpu.atBoundary_eq_true_iff.2 ?_
    cases under : o.cpu.suspended with
    | none => exact under
    | some s => exact absurd (enough s under) (Nat.not_le.2 (Position.cyclesAhead_pos rfl))
  · intro limit o _ _ boundary _
    rw [Outcome.toBoundary_of_boundary boundary]
    exact boundary
  · intro limit o s sound faultless under later enough
    rw [Outcome.toBoundary_of_inside faultless (Cpu.atBoundary_eq_false_iff.2 ⟨s, under⟩)]
    refine later fun s' left => ?_
    rw [Outcome.next_of_faultless faultless] at left
    exact Nat.le_of_lt_succ
      (Nat.lt_of_lt_of_le (sound.cyclesAhead_lt under left) (enough s under))

/-- As many calls as the longest instruction takes are enough. -/
theorem Cpu.Sound.toBoundary_longest {o : Outcome β} (h : o.cpu.Sound) (faultless : o.fault = none) :
    (o.toBoundary longestInstruction).cpu.atBoundary = true :=
  h.toBoundary_atBoundary faultless fun s under => (h.within s under).2.cyclesAhead_le

/-- Having stopped on the way makes no difference. -/
theorem Cpu.Sound.toBoundary_toBoundary {o : Outcome β} (h : o.cpu.Sound) (faultless : o.fault = none)
    (k : Nat) : (o.toBoundary k).toBoundary longestInstruction = o.toBoundary longestInstruction := by
  rw [← Outcome.toBoundary_add, Nat.add_comm, Outcome.toBoundary_add,
    Outcome.toBoundary_of_boundary (h.toBoundary_longest faultless)]

end Calls

end Sm83
