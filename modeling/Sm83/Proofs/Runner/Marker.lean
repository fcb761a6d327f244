import Mathlib.Order.Bounds.Basic
import Sm83.Proofs.Runner.Loops

/-!
# What a run reports

A run is reported by where it stopped.  Which call that is can be told from the processor's calls
alone, with no word of the two loops that make them.  If a call within the budget executes the
marker, it is the first that does, and the run stops with it.  Otherwise it is the first call from the
budget on that leaves nothing under way.

The budget therefore decides only whether the marker comes in time.  A run that finished is reported
alike under every larger budget.

* `OpcodeTable.mnemonic_eq_marker` — no other opcode of either table has the marker's text, so it
  makes no difference whether the marker is looked for by opcode or by text;
* `runImage_marked`, `runImage_spent` — the two ways in which a run stops;
* `runImage_reports` — all of this of every run of an image that fits.
-/

namespace Sm83

/-! ## The marker's text -/

/-- The text of the marker instruction. -/
def markerMnemonic : String := "LD B,B"

/-- Of all opcodes only the marker's has its text. -/
theorem OpcodeTable.mnemonic_eq_marker (table : OpcodeTable) (opcode : UInt8) :
    table.mnemonic opcode = markerMnemonic ↔ table = .base ∧ opcode = markerOpcode := by
  have base : ∀ opcode, OpcodeTable.base.mnemonic opcode = markerMnemonic ↔ opcode = markerOpcode :=
    forall_byte (by decide +kernel)
  have prefixed : ∀ opcode, OpcodeTable.prefixed.mnemonic opcode ≠ markerMnemonic :=
    forall_byte (by decide +kernel)
  cases table with
  | base => rw [base opcode, eq_self_iff_true, true_and]
  | prefixed => exact iff_of_false (prefixed opcode) fun h => nomatch h.1

/-- An event adds that text to the trace exactly if it is the execution of the marker. -/
theorem Event.mnemonic?_eq_marker (e : Event) :
    e.mnemonic? = some markerMnemonic ↔ e.isMarker = true := by
  cases e with
  | decoded table opcode =>
    rw [mnemonic?, Option.some.injEq, OpcodeTable.mnemonic_eq_marker]
    cases table with
    | base => exact (and_iff_right rfl).trans beq_iff_eq.symm
    | prefixed => exact iff_of_false (fun h => nomatch h.1) Bool.false_ne_true
  | _ => exact iff_of_false (fun h => nomatch h) Bool.false_ne_true

/-- So a call executes the marker exactly if the text is in its trace. -/
theorem marks_iff_trace (model : Model) (image : List UInt8) (n : Nat) :
    Marks model image n ↔ markerMnemonic ∈ Event.trace (nextCall model image n).events := by
  rw [Marks, List.any_eq_true, Event.trace, List.mem_filterMap]
  exact exists_congr fun e => and_congr_right fun _ => e.mnemonic?_eq_marker.symm

/-! ## Where a run stops -/

namespace Runner

variable {threshold : Option Log.Level} {model : Model} {image : List UInt8} {budget : Nat}

/-- What is reported of a run that has made `n` calls. -/
theorem Follows.report {n : Nat} {p : Progress} (h : Follows model image n p) :
    (⟨p.finished, p.cpu.cycles, p.cpu.regs⟩ : Report)
      = ⟨p.finished, n, (calls model image n).cpu.regs⟩ := by
  rw [h.cycles, h.cpu]

/-- A run stops with the first marker that comes within the budget. -/
theorem runImage_marked (fits : image.length ≤ addressSpace) {k : Nat} (within : k < budget)
    (first : IsLeast {n | Marks model image n} k) :
    (runImage threshold model budget image).result
      = .ok ⟨true, k + 1, (calls model image (k + 1)).cpu.regs⟩ := by
  obtain ⟨_, q, -, -, result, verdict⟩ := runImage_ends threshold model budget fits
  cases verdict with
  | marked k' _ first' follows =>
    obtain rfl : k' = k := first'.unique first
    rw [result, follows.report, follows.finished.2 ⟨k', Nat.lt_succ_self k', first.1⟩]
  | spent _ unmarked => exact absurd first.1 (unmarked k within)

/-- Without one it stops where the budget is spent and nothing is under way. -/
theorem runImage_spent (fits : image.length ≤ addressSpace)
    (unmarked : ∀ k < budget, ¬ Marks model image k) :
    ∃ n, IsLeast {n | budget ≤ n ∧ (calls model image n).cpu.atBoundary = true} n
      ∧ (runImage threshold model budget image).result
        = .ok ⟨false, n, (calls model image n).cpu.regs⟩ := by
  obtain ⟨_, q, -, -, result, verdict⟩ := runImage_ends threshold model budget fits
  cases verdict with
  | marked k within first => exact absurd first.1 (unmarked k within)
  | spent l _ inside boundary follows unfinished =>
    refine ⟨budget + l, ⟨⟨Nat.le_add_right budget l, boundary⟩, ?_⟩, ?_⟩
    · rintro n ⟨spent, at_boundary⟩
      obtain ⟨i, rfl⟩ := Nat.exists_eq_add_of_le spent
      refine Nat.add_le_add_left (Nat.le_of_not_lt fun sooner => ?_) budget
      exact Bool.true_eq_false.mp (at_boundary.symm.trans (inside i sooner))
    · rw [result, follows.report, unfinished]

/-- A run that finished did so with a first marker within the budget. -/
theorem marked_of_finished (fits : image.length ≤ addressSpace) {r : Report}
    (result : (runImage threshold model budget image).result = .ok r) (finished : r.finished = true) :
    ∃ k < budget, IsLeast {n | Marks model image n} k := by
  obtain ⟨_, q, -, -, result', verdict⟩ := runImage_ends threshold model budget fits
  cases result'.symm.trans result
  cases verdict with
  | marked k within first _ => exact ⟨k, within, first⟩
  | spent _ _ _ _ _ unfinished => exact absurd (finished.symm.trans unfinished) Bool.true_eq_false.mp

/-- What is promised of the report on a run. -/
structure Reports (threshold : Option Log.Level) (model : Model) (budget : Nat)
    (image : List UInt8) : Prop where
  /-- A call executes the marker if it begins the instruction with that opcode.  It does not where the
  byte is data, an operand or behind the prefix, where an interrupt is served, or in the middle of an
  instruction. -/
  begun : ∀ n, let o := calls model image n
    Marks model image n ↔ o.cpu.atBoundary = true ∧ o.cpu.halted = false
      ∧ o.cpu.serves o.bus = false ∧ opcodeFetched o.cpu o.bus = markerOpcode
  /-- The trace shows it by its text, and shows that text for nothing else. -/
  named : ∀ n, Marks model image n
    ↔ markerMnemonic ∈ Event.trace (nextCall model image n).events
  /-- The first marker within the budget finishes the run, and leaves nothing under way. -/
  finishes : ∀ k < budget, IsLeast {n | Marks model image n} k →
    (runImage threshold model budget image).result
        = .ok ⟨true, k + 1, (calls model image (k + 1)).cpu.regs⟩
      ∧ (calls model image (k + 1)).cpu.atBoundary = true
  /-- Without one the run does not finish.  It stops at the first boundary from the budget on. -/
  exhausts : (∀ k < budget, ¬ Marks model image k) →
    ∃ n, IsLeast {n | budget ≤ n ∧ (calls model image n).cpu.atBoundary = true} n
      ∧ (runImage threshold model budget image).result
        = .ok ⟨false, n, (calls model image n).cpu.regs⟩
  /-- A larger budget changes nothing for a run that finished. -/
  stable : ∀ r, (runImage threshold model budget image).result = .ok r → r.finished = true →
    ∀ budget' ≥ budget, (runImage threshold model budget' image).result = .ok r

/-- Every run of an image that fits is reported so. -/
theorem runImage_reports (threshold : Option Log.Level) (model : Model) (budget : Nat)
    {image : List UInt8} (fits : image.length ≤ addressSpace) :
    Reports threshold model budget image where
  begun := marks_iff model image
  named := marks_iff_trace model image
  finishes k within first :=
    ⟨runImage_marked fits within first, atBoundary_of_marks model image k first.1⟩
  exhausts unmarked := runImage_spent fits unmarked
  stable r result finished budget' larger := by
    obtain ⟨k, within, first⟩ := marked_of_finished fits result finished
    have within' : k < budget' := Nat.lt_of_lt_of_le within larger
    rw [runImage_marked fits within' first, ← result, runImage_marked fits within first]

/-- A program that is nothing but the marker, where programs start. -/
def onlyMarker : List UInt8 := List.replicate 0x100 0 ++ [markerOpcode]

/-- It finishes with its first call. -/
theorem runImage_reports_onlyMarker :
    onlyMarker.length ≤ addressSpace ∧ Reports none .dmg 7 onlyMarker
      ∧ (runImage none .dmg 7 onlyMarker).result
        = .ok ⟨true, 1, (calls .dmg onlyMarker 1).cpu.regs⟩ := by
  have fits : onlyMarker.length ≤ addressSpace := by
    rw [onlyMarker, List.length_append, List.length_replicate]
    decide
  have reports := runImage_reports none .dmg 7 fits
  have opcode : opcodeFetched (calls .dmg onlyMarker 0).cpu (calls .dmg onlyMarker 0).bus
      = markerOpcode := by
    show (Memory.ofImage onlyMarker).get 0x100 = _
    rw [Memory.get_ofImage]
    rfl
  have marks : Marks .dmg onlyMarker 0 := (reports.begun 0).2 ⟨rfl, rfl, rfl, opcode⟩
  refine ⟨fits, reports, ?_⟩
  exact (reports.finishes 0 (by decide) ⟨marks, fun i _ => Nat.zero_le i⟩).1

end Runner

end Sm83
