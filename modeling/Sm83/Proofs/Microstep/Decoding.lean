import Sm83.Proofs.Microstep.Depth

/-!
# Steps that decode nothing

The trace and the log tell of every opcode that is decoded, and an opcode is decoded at two places
only: at the end of a fetch, and at the end of the row that reads the second byte behind the prefix.
Everything else that happens is passed over.

* `decodings` — of all events, those that decode an opcode; the trace (`Event.trace_decodings`) and
  the log's records of instructions (`Event.instructionRecords_decodings`) are read off these.
* `Position.Decoded` — from this position to the end of the instruction nothing is decoded any more.

A move from there leaves the decodings as they are (`Position.Decoded.act`).  Instructions other
than the prefix are decoded from their first step on, and so is what the prefix selects.
-/

namespace Sm83

/-! ## Events that decode -/

/-- Whether an opcode is decoded. -/
def Event.isDecoding : Event → Bool
  | .decoded _ _ _ => true
  | _ => false

/-- The events that decode an opcode. -/
def decodings (events : List Event) : List Event := events.filter Event.isDecoding

theorem decodings_append (events later : List Event) :
    decodings (events ++ later) = decodings events ++ decodings later := List.filter_append ..

/-- The trace tells of nothing else. -/
theorem Event.trace_decodings (events : List Event) :
    trace (decodings events) = trace events := by
  induction events with
  | nil => rfl
  | cons e events ih =>
    cases e with
    | decoded table opcode start => exact congrArg (table.mnemonic opcode :: ·) ih
    | _ => exact ih

/-- What a log that shows everything says of the instructions. -/
def Event.instructionRecords (events : List Event) : List Log.Record :=
  (records (some .trace) events).filter (·.level = .trace)

/-- These records too tell of nothing else. -/
theorem Event.instructionRecords_decodings (events : List Event) :
    instructionRecords (decodings events) = instructionRecords events := by
  induction events with
  | nil => rfl
  | cons e events ih =>
    cases e with
    | decoded table opcode start =>
      exact congrArg (⟨.processor, .trace, message (.decoded table opcode start)⟩ :: ·) ih
    | _ => exact ih

section Notes

variable {β : Type} [Bus β]

omit [Bus β] in
/-- Other events leave the decodings. -/
theorem Outside.decodings_note (o : Outside β) {e : Event} (h : e.isDecoding = false) :
    decodings (o.note e).events = decodings o.events := by
  have alone : decodings [e] = [] := List.filter_cons_of_neg (Bool.not_eq_true _ ▸ h)
  show decodings (o.events ++ [e]) = _
  rw [decodings_append, alone, List.append_nil]

theorem Outside.decodings_load (a : UInt16) (o : Outside β) :
    decodings (o.load a).2.events = decodings o.events := by
  rw [load]
  split
  · exact o.decodings_note rfl
  · rfl

theorem Outside.decodings_store (a : UInt16) (value : UInt8) (o : Outside β) :
    decodings (o.store a value).events = decodings o.events := by
  rw [store]
  split
  · exact Outside.decodings_note { o with speed := _ } rfl
  · rfl

/-! ## Steps -/

/-- No step decodes anything. -/
theorem MicroStep.act_decodings {s : MicroStep} {v w : Scene β} (h : s.act v = some w) :
    decodings w.out.events = decodings v.out.events := by
  obtain ⟨xs, c, o⟩ := v
  match s with
  | .transfer t =>
    obtain ⟨_, -, rfl⟩ := Option.map_eq_some_iff.1 h
    rfl
  | .cycle s =>
    obtain ⟨⟨ys, o'⟩, acts, rfl⟩ := Option.map_eq_some_iff.1 h
    match s, xs, acts with
    | .read, hi :: lo :: xs, rfl => exact o.decodings_load _
    | .write, hi :: lo :: value :: xs, rfl => exact o.decodings_store _ value
    | .delay, xs, rfl => rfl
  | .control .undefined =>
    cases h
    exact o.decodings_note rfl
  | .control .stop =>
    simp only [act, Control.act] at h
    split at h
    · cases h
      exact Outside.decodings_note { o with speed := _ } rfl
    · cases h
      exact o.decodings_note rfl
  | .control .halt =>
    cases h
    split
    · exact Outside.decodings_note { o with bus := _ } rfl
    · exact Outside.decodings_note { o with bus := _ } rfl
  | .control .acknowledge =>
    simp only [act, Control.act] at h
    split at h
    · cases h
    · cases h
      exact Outside.decodings_note { o with bus := _ } rfl

end Notes

/-! ## Positions -/

/-- Whether no row behind a row with this ending begins with an opcode. -/
def Ending.isDecoded : Ending → Bool
  | .decode | .exit .prefixed => false
  | .exit .retire | .exit (.branch _ _ _) => true

/-- From here to the end of the instruction nothing is decoded. -/
def Position.Decoded (p : Position) : Prop := p.ending.isDecoded = true

/-- A move from there leaves the decodings, and leads to where nothing is decoded. -/
theorem Position.Decoded.act {β : Type} [Bus β] {p : Position} {v w : Scene β}
    {r : Option Position} (h : p.Decoded) (acts : p.act v = some (r, w)) :
    (∀ q, r = some q → q.Decoded) ∧ decodings w.out.events = decodings v.out.events := by
  cases moved_of_act acts with
  | step first =>
    refine ⟨?_, MicroStep.act_decodings first⟩
    rintro q ⟨⟩
    exact h
  | retires | dropped _ _ => exact ⟨nofun, rfl⟩
  | taken _ =>
    refine ⟨?_, rfl⟩
    rintro q ⟨⟩
    rfl
  | decodes _ | selects _ => cases h

/-- Instructions other than the prefix are decoded from their first step on. -/
theorem decoded_instruction {i : Instruction} (plain : i ≠ .prefixed) :
    i.microprogram.position.Decoded := by
  cases i with
  | prefixed => exact absurd rfl plain
  | _ => rfl

end Sm83
