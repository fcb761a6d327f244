import Sm83.Proofs.Microstep.Decoding
import Sm83.Proofs.Run.Shown
import Sm83.Proofs.Run.Timing

/-!
# What the trace tells of a run

The trace is a by-product of decoding: each opcode is reported where it is taken off the scratch
stack.  What it amounts to is the stream of executed instructions, told without the trace: at which
calls an opcode is fetched, where from, and which bytes are read.

* `Fetched`, `Cpu.fetchedAlong` — the instructions that a run fetches, each with its address, its
  opcode and the byte behind the prefix, once there was a call to read it.
* `Cpu.Owes` — between calls nothing remains to be told of the instructions so far, except of one
  that waits for the byte behind its prefix.
* `Cpu.Owes.step` — the step: a call tells what was owed or the opcode that it fetches, and nothing
  else.
* `Cpu.Owes.decodings_along` — so a run tells of its instructions, and in order.
* `Reachable.tellsInstructions` — the trace and the log's records of instructions.
-/

namespace Sm83

/-! ## Instructions that are fetched -/

/-- An instruction that was fetched. -/
structure Fetched where
  /-- Where its opcode was fetched. -/
  address : UInt16
  opcode : UInt8
  /-- The byte behind the prefix, where the opcode is the prefix and that byte has been read. -/
  second : Option UInt8
  deriving DecidableEq, Repr

namespace Fetched

/-- What the trace has to tell of it. -/
def mnemonics (f : Fetched) : List String :=
  OpcodeTable.base.mnemonic f.opcode :: f.second.toList.map OpcodeTable.prefixed.mnemonic

/-- The sixteen digits. -/
def hexDigits : List Char :=
  ['0', '1', '2', '3', '4', '5', '6', '7', '8', '9', 'A', 'B', 'C', 'D', 'E', 'F']

/-- Its address in four digits behind `0x`. -/
def addressText (f : Fetched) : String :=
  "0x" ++ String.ofList ([f.address.toNat / 4096, f.address.toNat / 256 % 16,
    f.address.toNat / 16 % 16, f.address.toNat % 16].map (hexDigits.getD · '0'))

/-- What the log has to tell of it: the same, behind its address. -/
def records (f : Fetched) : List Log.Record :=
  f.mnemonics.map fun mnemonic => ⟨.processor, .trace, f.addressText ++ ": " ++ mnemonic⟩

/-- The events that tell it. -/
def decodings (f : Fetched) : List Event :=
  .decoded .base f.opcode f.address
    :: f.second.toList.map fun second => .decoded .prefixed second f.address

theorem digit_eq {n : Nat} (h : n < 16) : Text.Hex.digit n = hexDigits.getD n '0' :=
  (by decide : ∀ n < 16, Text.Hex.digit n = hexDigits.getD n '0') n h

/-- The log writes addresses in this way. -/
theorem addressText_eq (f : Fetched) : f.addressText = Event.address f.address := by
  have small (n : Nat) : n % 16 < 16 := Nat.mod_lt n (by decide)
  have first : f.address.toNat / 4096 = f.address.toNat / 4096 % 16 := by
    have := f.address.toNat_lt
    omega
  have digits : Text.Hex.digits 4 f.address.toNat
      = [f.address.toNat / 4096, f.address.toNat / 256 % 16, f.address.toNat / 16 % 16,
        f.address.toNat % 16].map (hexDigits.getD · '0') := by
    rw [first]
    simp only [Text.Hex.digits, Nat.div_div_eq_div_mul, digit_eq (small _), List.map_cons,
      List.map_nil, List.nil_append, List.cons_append]
  rw [addressText, ← digits]
  rfl

theorem trace_decodings (f : Fetched) : Event.trace f.decodings = f.mnemonics := by
  obtain ⟨a, opcode, _ | second⟩ := f <;> rfl

theorem instructionRecords_decodings (f : Fetched) :
    Event.instructionRecords f.decodings = f.records := by
  rw [records, addressText_eq]
  obtain ⟨a, opcode, _ | second⟩ := f <;> rfl

end Fetched

section Runs

variable {β : Type} [Bus β] {cpu : Cpu} {bus : β}

/-- Whether a call fetches an opcode. -/
def Cpu.fetches (cpu : Cpu) (bus : β) : Bool :=
  cpu.atBoundary && !cpu.halted && !cpu.serves bus

theorem Cpu.fetches_iff : cpu.fetches bus = true
    ↔ cpu.suspended = none ∧ cpu.halted = false ∧ cpu.serves bus = false := by
  rw [fetches, Bool.and_eq_true, Bool.and_eq_true, Cpu.atBoundary_eq_true_iff, Bool.not_eq_true',
    Bool.not_eq_true', and_assoc]

/-- Where the byte behind the opcode is read: behind it, or where the HALT bug is armed, at the
opcode itself. -/
def Cpu.secondAddress (cpu : Cpu) : UInt16 :=
  if cpu.haltBug then cpu.regs.pc else cpu.regs.pc + 1

/-- The instruction that a call fetches.  The byte behind the prefix is for the first of the calls
after it to read. -/
def Cpu.fetched? (cpu : Cpu) (bus : β) (later : List β) : Option Fetched :=
  if cpu.fetches bus then
    some
      { address := cpu.regs.pc
        opcode := opcodeFetched cpu bus
        second :=
          if opcodeFetched cpu bus = 0xCB then
            later.head?.map (byteRead cpu.secondAddress cpu.speed)
          else none }
  else none

/-- The instructions that calls fetch, each call on whatever bus there is this time. -/
def Cpu.fetchedAlong (cpu : Cpu) : List β → List Fetched
  | [] => []
  | bus :: later => (cpu.fetched? bus later).toList ++ (cpu.step bus).cpu.fetchedAlong later

/-- What happens in these calls. -/
def Cpu.eventsAlong (cpu : Cpu) : List β → List Event
  | [] => []
  | bus :: later => (cpu.step bus).events ++ (cpu.step bus).cpu.eventsAlong later

/-! ## Calls without a byte behind a prefix -/

/-- `ds` has been decoded, and nothing more is to come. -/
structure Told (ds : List Event) (r : Option Position) (v : Scene β) : Prop where
  decoded : ∀ p, r = some p → p.Decoded
  told : decodings v.out.events = ds

theorem Told.steady (ds : List Event) : Steady (Told (β := β) ds) := by
  intro p v r w h _ acts
  obtain ⟨decoded, same⟩ := (h.decoded p rfl).act acts
  exact ⟨decoded, same.trans h.told⟩

/-- An instruction under way, if there is one, decodes nothing more. -/
def Cpu.Plain (cpu : Cpu) : Prop := ∀ s, cpu.suspended = some s → s.position.Decoded

theorem Cpu.Plain.of_boundary (boundary : cpu.suspended = none) : cpu.Plain := fun s under =>
  absurd (under.symm.trans boundary) (Option.some_ne_none s)

omit [Bus β] in
/-- What a call has told, if it ended there. -/
theorem Told.outcome {ds : List Event} {o : Outcome β}
    (h : Told ds (o.cpu.suspended.map Suspension.position) o.scene) :
    decodings o.events = ds ∧ o.cpu.Plain :=
  ⟨h.told, fun _ under => h.decoded _ (congrArg (Option.map Suspension.position) under)⟩

/-- An instruction under way goes on and decodes nothing. -/
theorem Cpu.Sound.decodings_inside (h : cpu.Sound) (plain : cpu.Plain) {s : Suspension}
    (under : cpu.suspended = some s) (bus : β) :
    decodings (cpu.step bus).events = [] ∧ (cpu.step bus).cpu.Plain := by
  refine (h.inside_keeps under (Told.steady []) fun r w acts => ?_).shown.outcome
  obtain ⟨decoded, same⟩ := (plain s under).act acts
  exact ⟨decoded, same⟩

/-- A halted processor decodes nothing, whether or not it wakes. -/
theorem Cpu.decodings_idling (boundary : cpu.suspended = none) (halted : cpu.halted = true)
    (bus : β) : decodings (cpu.step bus).events = [] ∧ (cpu.step bus).cpu.Plain := by
  rw [Cpu.step_of_idles boundary halted]
  refine ⟨?_, .of_boundary rfl⟩
  show decodings (Machine.wakeNotes cpu.choosing (Bus.poll bus).1) = []
  rw [Machine.wakeNotes]
  split <;> rfl

/-- A processor that serves an interrupt decodes nothing. -/
theorem Cpu.Sound.decodings_serving (h : cpu.Sound) (boundary : cpu.suspended = none)
    (serves : cpu.serves bus = true) {line : InterruptSet}
    (present : (Bus.poll (Bus.poll bus).2).1.first? = some line) :
    decodings (cpu.step bus).events = [] ∧ (cpu.step bus).cpu.Plain := by
  refine (h.serving_keeps boundary serves present (Told.steady []) fun r w acts => ?_).shown.outcome
  obtain ⟨decoded, same⟩ := Position.Decoded.act (p := acknowledgedPosition) rfl acts
  exact ⟨decoded, same⟩

/-- Nor does one that finds the interrupt gone. -/
theorem Cpu.decodings_vanishing (boundary : cpu.suspended = none)
    (serves : cpu.serves bus = true) (gone : (Bus.poll (Bus.poll bus).2).1.isEmpty = true) :
    decodings (cpu.step bus).events = [] ∧ (cpu.step bus).cpu.Plain := by
  rw [Cpu.step_of_vanishes boundary serves gone]
  exact ⟨rfl, .of_boundary cpu.choosing_suspended⟩

/-- Only a fetch has anything to tell, as long as no byte behind a prefix is to be read. -/
theorem Cpu.Sound.decodings_silent (h : cpu.Sound) (plain : cpu.Plain)
    (silent : cpu.fetches bus = false) :
    decodings (cpu.step bus).events = [] ∧ (cpu.step bus).cpu.Plain := by
  cases cpu.callKind bus with
  | inside s under => exact h.decodings_inside plain under bus
  | idling boundary halted => exact Cpu.decodings_idling boundary halted bus
  | serving boundary serves line present => exact h.decodings_serving boundary serves present
  | vanishing boundary serves gone => exact Cpu.decodings_vanishing boundary serves gone
  | fetching boundary awake idle =>
    have fetches := Cpu.fetches_iff.2 ⟨boundary, awake, idle⟩
    exact absurd (fetches.symm.trans silent) Bool.true_eq_false.mp

/-- What is shown when an opcode was fetched. -/
theorem sceneFetched_decodings (cpu : Cpu) (bus : β) :
    decodings (sceneFetched cpu bus).out.events
      = [.decoded .base (opcodeFetched cpu bus) cpu.regs.pc] := by
  show decodings ((Outside.load _ _).2.events ++ [_]) = _
  rw [decodings_append, Outside.decodings_load]
  rfl

/-- A fetch decodes the opcode, and unless that is the prefix, nothing more is to come. -/
theorem Cpu.Sound.decodings_fetching (h : cpu.Sound) (boundary : cpu.suspended = none)
    (awake : cpu.halted = false) (idle : cpu.serves bus = false)
    (plain : opcodeFetched cpu bus ≠ 0xCB) :
    decodings (cpu.step bus).events = [.decoded .base (opcodeFetched cpu bus) cpu.regs.pc]
      ∧ (cpu.step bus).cpu.Plain := by
  have short : Instruction.ofOpcode (opcodeFetched cpu bus) ≠ .prefixed := fun prefixed =>
    plain (eq_prefix_of_ofOpcode prefixed)
  refine (h.fetching_keeps boundary awake idle (Told.steady _) ⟨?_, ?_⟩).shown.outcome
  · rintro p ⟨⟩
    exact decoded_instruction short
  · exact sceneFetched_decodings cpu bus

/-! ## The prefix and the byte behind it -/

/-- The fetch of the prefix stops in front of the byte behind it. -/
theorem Cpu.Sound.decodings_prefix (h : cpu.Sound) (boundary : cpu.suspended = none)
    (awake : cpu.halted = false) (idle : cpu.serves bus = false)
    (opcode : opcodeFetched cpu bus = 0xCB) :
    decodings (cpu.step bus).events = [.decoded .base (opcodeFetched cpu bus) cpu.regs.pc]
      ∧ AwaitsSecond cpu.secondAddress cpu.speed (cpu.step bus).cpu
      ∧ (cpu.step bus).cpu.opcodeAddress = cpu.regs.pc := by
  let v := sceneFetched cpu bus
  have settles : Settles (Instruction.ofOpcode (opcodeFetched cpu bus)).microprogram.position v
      (some ⟨.read, [], .prefixed⟩) ⟨onTop v.core.regs.pc [], v.core.advancePc, v.out⟩ := by
    rw [opcode, ofOpcode_prefix]
    change Settles ⟨Microcode.internal [.loadWord .pc, .advancePc] ++ [.cycle .read], _⟩ v _ _
    exact Settles.row rfl
  have ends := (h.fetching_keeps boundary awake idle (Towards.steady _ _) settles).endsAt
  obtain ⟨stack, core, out⟩ := (Scene.mk.injEq ..).mp ends.scene
  obtain ⟨speed, -, events⟩ := (Outside.mk.injEq ..).mp out
  refine ⟨?_, ⟨ends.suspended, ?_, ?_⟩, ?_⟩
  · rw [← sceneFetched_decodings]
    exact congrArg decodings events
  · rw [stack, sceneFetched_pc]
    rfl
  · exact speed.trans (sceneFetched_speed cpu bus)
  · refine (congrArg Core.opcodeAddress core).trans ?_
    rw [Core.advancePc_opcodeAddress, sceneFetched_core]

/-- The byte behind the prefix is on the scratch stack, or has been decoded. -/
inductive Selecting (second : UInt8) (start : UInt16) : Option Position → Scene β → Prop
  | byte {c : Core} {o : Outside β} (nothing : decodings o.events = [])
    (address : c.opcodeAddress = start) :
    Selecting second start (some ⟨[], .exit .prefixed⟩) ⟨[second], c, o⟩
  | told {r : Option Position} {v : Scene β} (h : Told [.decoded .prefixed second start] r v) :
    Selecting second start r v

theorem Selecting.steady (second : UInt8) (start : UInt16) :
    Steady (Selecting (β := β) second start) := by
  intro p v r w h instant acts
  cases h with
  | byte nothing address =>
    cases acts
    refine .told ⟨?_, ?_⟩
    · rintro p ⟨⟩
      rfl
    · show decodings (_ ++ [_]) = _
      rw [decodings_append, nothing, address]
      rfl
  | told h => exact .told (Told.steady _ p v r w h instant acts)

/-- The next call reads that byte and decodes it, at the address at which the prefix was fetched. -/
theorem AwaitsSecond.decodes {a : UInt16} {speed : Option SpeedSwitch}
    (h : AwaitsSecond a speed cpu) (sound : cpu.Sound) (bus : β) :
    decodings (cpu.step bus).events
        = [.decoded .prefixed (byteRead a speed bus) cpu.opcodeAddress]
      ∧ (cpu.step bus).cpu.Plain := by
  have arrives : Arrives (Selecting (byteRead a speed bus) cpu.opcodeAddress) cpu
      (cpu.step bus) := by
    refine sound.inside_keeps h.waits (Selecting.steady _ _) fun r w acts => ?_
    have reads : (Position.mk [.cycle .read] (.exit .prefixed)).act (sceneInside cpu bus)
        = some (some ⟨[], .exit .prefixed⟩,
            ⟨[byteRead a speed bus], cpu.core, ((Outside.mk speed bus []).load a).2⟩) := by
      rw [sceneInside, h.address, h.speed, Position.act, onTop]
      simp only [MicroStep.act, MachineCycle.act, Word.ofBytes_high_low, Option.map_some]
      rfl
    cases reads.symm.trans acts
    exact .byte (Outside.decodings_load _ _) rfl
  have shown := arrives.shown
  generalize standing : (cpu.step bus).cpu.suspended.map Suspension.position = r at shown
  generalize seen : (cpu.step bus).scene = v at shown
  cases shown with
  | byte =>
    -- a call stops in front of a machine cycle, and here is none
    obtain ⟨s, -, place⟩ := Option.map_eq_some_iff.1 standing
    cases place
  | told h =>
    subst standing seen
    exact h.outcome

/-! ## From call to call -/

/-- What remains to be decoded of the instruction under way, given the buses of the calls to come:
nothing, or the byte behind the prefix. -/
inductive Cpu.Owes (cpu : Cpu) : (List β → List Event) → Prop
  | nothing (plain : cpu.Plain) : cpu.Owes fun _ => []
  | second {a : UInt16} {speed : Option SpeedSwitch} (awaits : AwaitsSecond a speed cpu) :
    cpu.Owes fun buses => (buses.head?.map fun bus =>
      .decoded .prefixed (byteRead a speed bus) cpu.opcodeAddress).toList

theorem Cpu.fetched?_of_not_fetches (h : cpu.fetches bus = false) (later : List β) :
    cpu.fetched? bus later = none := by
  rw [fetched?, h, if_neg Bool.false_ne_true]

/-- A call decodes what was owed and the opcode that it fetches, and may come to owe the byte behind
it. -/
theorem Cpu.Owes.step {owed : List β → List Event} (h : cpu.Owes owed) (sound : cpu.Sound)
    (bus : β) :
    ∃ owed', (cpu.step bus).cpu.Owes owed' ∧ ∀ later,
      decodings (cpu.step bus).events ++ owed' later
        = owed (bus :: later) ++ (cpu.fetched? bus later).toList.flatMap Fetched.decodings := by
  cases h with
  | second awaits =>
    obtain ⟨told, plain⟩ := awaits.decodes sound bus
    have inside : cpu.fetches bus = false := by
      rw [Cpu.fetches, Cpu.atBoundary_eq_false_iff.2 ⟨_, awaits.waits⟩]
      rfl
    refine ⟨_, .nothing plain, fun later => ?_⟩
    rw [told, Cpu.fetched?_of_not_fetches inside]
    rfl
  | nothing plain =>
    cases fetches : cpu.fetches bus with
    | false =>
      obtain ⟨told, plain⟩ := sound.decodings_silent plain fetches
      refine ⟨_, .nothing plain, fun later => ?_⟩
      rw [told, Cpu.fetched?_of_not_fetches fetches]
      rfl
    | true =>
      obtain ⟨boundary, awake, idle⟩ := Cpu.fetches_iff.1 fetches
      by_cases opcode : opcodeFetched cpu bus = 0xCB
      · obtain ⟨told, awaits, start⟩ := sound.decodings_prefix boundary awake idle opcode
        refine ⟨_, .second awaits, fun later => ?_⟩
        rw [told, start, Cpu.fetched?, fetches, if_pos rfl, if_pos opcode]
        cases later <;> rfl
      · obtain ⟨told, plain⟩ := sound.decodings_fetching boundary awake idle opcode
        refine ⟨_, .nothing plain, fun later => ?_⟩
        rw [told, Cpu.fetched?, fetches, if_pos rfl, if_neg opcode]
        rfl

/-- A run decodes what was owed and the instructions that it fetches, in order. -/
theorem Cpu.Owes.decodings_along {owed : List β → List Event} (h : cpu.Owes owed)
    (sound : cpu.Sound) (buses : List β) :
    decodings (cpu.eventsAlong buses)
      = owed buses ++ (cpu.fetchedAlong buses).flatMap Fetched.decodings := by
  induction buses generalizing cpu owed with
  | nil => cases h <;> rfl
  | cons bus later ih =>
    obtain ⟨owed', owes, told⟩ := h.step sound bus
    rw [eventsAlong, decodings_append, ih owes (sound.step bus), ← List.append_assoc, told later,
      List.append_assoc, ← List.flatMap_append]
    rfl

/-! ## The trace and the log -/

/-- The trace of a run and its records of instructions are those of the instructions that were
fetched. -/
structure TellsInstructions (cpu : Cpu) (buses : List β) : Prop where
  /-- The trace has the mnemonic of each opcode that was fetched, and where it is the prefix, that
  of the byte behind it once it was read. -/
  trace : Event.trace (cpu.eventsAlong buses)
    = (cpu.fetchedAlong buses).flatMap Fetched.mnemonics
  /-- The log has the same behind the address of the opcode. -/
  records : Event.instructionRecords (cpu.eventsAlong buses)
    = (cpu.fetchedAlong buses).flatMap Fetched.records

/-- From a boundary on, whatever the host has done before and the buses answer, the trace is the
stream of instructions that are executed.  Interrupts that are served, calls that idle or wake, and
branches that are not taken add nothing to it, and a byte that the HALT bug has fetched twice is
told once for each fetch. -/
theorem Reachable.tellsInstructions (h : Reachable cpu) (boundary : cpu.atBoundary = true)
    (buses : List β) : TellsInstructions cpu buses := by
  have plain : cpu.Plain := .of_boundary (Cpu.atBoundary_eq_true_iff.1 boundary)
  have told : decodings (cpu.eventsAlong buses)
      = (cpu.fetchedAlong buses).flatMap Fetched.decodings :=
    (Cpu.Owes.nothing plain).decodings_along h.sound buses
  constructor
  · rw [← Event.trace_decodings, told, Event.trace, List.filterMap_flatMap]
    exact congrArg (List.flatMap · _) (funext Fetched.trace_decodings)
  · rw [← Event.instructionRecords_decodings, told, Event.instructionRecords, Event.records,
      List.filterMap_flatMap, List.filter_flatMap]
    exact congrArg (List.flatMap · _) (funext Fetched.instructionRecords_decodings)

end Runs

/-- The prefix and the byte behind it, at two calls. -/
def prefixedInstruction : List (Bus.Scripted (Bus.Blocked Memory)) :=
  [openBusExcept 0x0100 0xCB, openBusExcept 0x0101 0x37]

/-- Two calls tell of one instruction in two lines. -/
theorem Reachable.tellsInstructions_prefixed :
    Reachable (.new .dmg true) ∧ (Cpu.new .dmg true).atBoundary = true
      ∧ TellsInstructions (.new .dmg true) prefixedInstruction
      ∧ Event.trace ((Cpu.new .dmg true).eventsAlong prefixedInstruction)
        = ["PREFIX CB", "SWAP A"]
      ∧ Event.instructionRecords ((Cpu.new .dmg true).eventsAlong prefixedInstruction)
        = [⟨.processor, .trace, "0x0100: PREFIX CB"⟩, ⟨.processor, .trace, "0x0100: SWAP A"⟩] := by
  have reachable : Reachable (.new .dmg true) := .new .dmg true
  have told := reachable.tellsInstructions rfl prefixedInstruction
  have fetched : (Cpu.new .dmg true).fetchedAlong prefixedInstruction
      = [⟨0x0100, 0xCB, some 0x37⟩] := by decide +kernel
  refine ⟨reachable, rfl, told, ?_, ?_⟩
  · rw [told.trace, fetched]
    decide +kernel
  · rw [told.records, fetched]
    decide +kernel

end Sm83
