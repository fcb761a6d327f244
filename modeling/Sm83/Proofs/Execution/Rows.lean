import Sm83.Proofs.Execution.Meaning
import Sm83.Proofs.Run.Call

/-!
# The microcode does what instructions mean

Each row of microcode is followed through the scenes that it leads to and compared with what the
instruction means.  `Ends p v w` says that moves lead from the position `p` in the scene `v` to the
end of the instruction and to the scene `w`.

Rows are put together from blocks, and so are these proofs: first the steps inside the processor, each
as a rule that takes it off the front of a row, then the blocks, then the instructions, grouped by the
shape of their rows.  A branch is followed both ways.

* `ends_of_isData`, `ends_of_isControl` — the microprogram of an instruction ends where executing it
  in one go ends.

Steps compute with the definitions that run and meanings are in the terms of the manual, so each rule
also goes from the one to the other.  The blocks read operands where the program counter points and
move it on, so the HALT bug must be clear.
-/

namespace Sm83

open Microcode Manual

variable {β : Type} [Bus β]

/-! ## The end of an instruction -/

/-- Moves lead from a position to the end of the instruction. -/
inductive Ends : Position → Scene β → Scene β → Prop
  | stop {p : Position} {v w : Scene β} (acts : p.act v = some (none, w)) : Ends p v w
  | move {p q : Position} {v u w : Scene β} (acts : p.act v = some (some q, u))
    (ends : Ends q u w) : Ends p v w

namespace Ends

variable {steps : List MicroStep} {ending : Ending} {v u w : Scene β}

/-- A row is followed by what follows its ending. -/
theorem row (acts : actAll steps v = some u) (ends : Ends ⟨[], ending⟩ u w) :
    Ends ⟨steps, ending⟩ v w := by
  induction steps generalizing v with
  | nil =>
    cases acts
    exact ends
  | cons s rest ih =>
    obtain ⟨v', e, acts⟩ := Option.bind_eq_some_iff.1 acts
    exact .move (by rw [Position.act, e, Option.map_some]) (ih acts)

/-- A row with nothing behind it. -/
theorem last (acts : actAll steps v = some w) : Ends ⟨steps, .exit .retire⟩ v w :=
  row acts (.stop rfl)

/-- A branch that is taken. -/
theorem taken {condition : Condition} {taken : List MicroStep} {leftover : Nat} {xs : List UInt8}
    {c : Core} {o : Outside β} (met : holds c.regs.f condition = true)
    (acts : actAll taken ⟨xs, c, o⟩ = some w) :
    Ends ⟨[], .exit (.branch condition taken leftover)⟩ ⟨xs, c, o⟩ w :=
  .move (by rw [Position.act, ← holds_eq, if_pos met]) (.last acts)

/-- A branch that is not taken drops the bytes that it would have used. -/
theorem untaken {condition : Condition} {taken : List MicroStep} (xs : List UInt8)
    {c : Core} {o : Outside β} (fails : ¬ holds c.regs.f condition = true) :
    Ends ⟨[], .exit (.branch condition taken xs.length)⟩ ⟨xs, c, o⟩ ⟨[], c, o⟩ := by
  refine .stop ?_
  rw [Position.act, ← holds_eq, if_neg fails, if_pos (Nat.le_refl _), List.drop_length]

end Ends

/-- The scene of a core and an outside, with nothing on the scratch stack. -/
def bare (r : Core × Outside β) : Scene β := ⟨[], r.1, r.2⟩

/-! ## Steps inside the processor -/

section Transfers

variable (ts : List Transfer) (xs : List UInt8) (c : Core) (o : Outside β)

@[simp] theorem actAll_internal_nil : actAll (internal []) ⟨xs, c, o⟩ = some ⟨xs, c, o⟩ := rfl

@[simp] theorem actAll_loadByte (reg : Reg8) :
    actAll (internal (.loadByte reg :: ts)) ⟨xs, c, o⟩
      = actAll (internal ts) ⟨byte c.regs reg :: xs, c, o⟩ := by
  rw [byte_eq]
  rfl

@[simp] theorem actAll_storeByte (reg : Reg8) (value : UInt8) :
    actAll (internal (.storeByte reg :: ts)) ⟨value :: xs, c, o⟩
      = actAll (internal ts) ⟨xs, { c with regs := setByte c.regs reg value }, o⟩ := by
  rw [setByte_eq]
  rfl

@[simp] theorem actAll_loadWord (reg : Reg16) :
    actAll (internal (.loadWord reg :: ts)) ⟨xs, c, o⟩
      = actAll (internal ts) ⟨onTop (word c.regs reg) xs, c, o⟩ := by
  rw [word_eq]
  rfl

@[simp] theorem actAll_storeWord (reg : Reg16) (w : UInt16) :
    actAll (internal (.storeWord reg :: ts)) ⟨onTop w xs, c, o⟩
      = actAll (internal ts) ⟨xs, { c with regs := setWord c.regs reg w }, o⟩ := by
  change actAll (internal ts) ⟨xs, { c with regs := c.regs.setWord reg (Word.ofBytes _ _) }, o⟩ = _
  rw [Word.ofBytes_high_low, setWord_eq]

@[simp] theorem actAll_constant (value : UInt16) :
    actAll (internal (.constant value :: ts)) ⟨xs, c, o⟩
      = actAll (internal ts) ⟨onTop value xs, c, o⟩ := rfl

@[simp] theorem actAll_advancePc :
    actAll (internal (.advancePc :: ts)) ⟨xs, c, o⟩
      = actAll (internal ts) ⟨xs, c.advancePc, o⟩ := rfl

@[simp] theorem actAll_highPage (offset : UInt8) :
    actAll (internal (.highPage :: ts)) ⟨offset :: xs, c, o⟩
      = actAll (internal ts) ⟨onTop (highPage offset) xs, c, o⟩ := by
  rw [highPage, joined_eq]
  rfl

@[simp] theorem actAll_alu (op : AluOp) (a b : UInt8) :
    actAll (internal (.alu op :: ts)) ⟨b :: a :: xs, c, o⟩
      = actAll (internal ts) ⟨if op = .cp then xs else (combined op a b c.regs.f.c).1 :: xs,
        { c with regs := { c.regs with f := (combined op a b c.regs.f.c).2 } }, o⟩ := by
  cases op <;> rfl

@[simp] theorem actAll_unary (op : UnaryOp) (value : UInt8) :
    actAll (internal (.unary op :: ts)) ⟨value :: xs, c, o⟩
      = actAll (internal ts) ⟨(changed op value c.regs.f).1 :: xs,
        { c with regs := { c.regs with f := (changed op value c.regs.f).2 } }, o⟩ := by
  rw [changed_eq]
  rfl

@[simp] theorem actAll_testBit (n : Fin 8) (value : UInt8) :
    actAll (internal (.testBit n :: ts)) ⟨value :: xs, c, o⟩
      = actAll (internal ts)
        ⟨xs, { c with regs := { c.regs with f := Alu.bit n value c.regs.f } }, o⟩ := rfl

@[simp] theorem actAll_incWord (w : UInt16) :
    actAll (internal (.incWord :: ts)) ⟨onTop w xs, c, o⟩
      = actAll (internal ts) ⟨onTop (w + 1) xs, c, o⟩ := by
  change actAll (internal ts) ⟨onTop (Word.ofBytes _ _ + 1) xs, c, o⟩ = _
  rw [Word.ofBytes_high_low]

@[simp] theorem actAll_decWord (w : UInt16) :
    actAll (internal (.decWord :: ts)) ⟨onTop w xs, c, o⟩
      = actAll (internal ts) ⟨onTop (w - 1) xs, c, o⟩ := by
  change actAll (internal ts) ⟨onTop (Word.ofBytes _ _ - 1) xs, c, o⟩ = _
  rw [Word.ofBytes_high_low]

@[simp] theorem actAll_addWords (a b : UInt16) :
    actAll (internal (.addWords :: ts)) ⟨onTop b (onTop a xs), c, o⟩
      = actAll (internal ts) ⟨onTop (Alu.add16 a b c.regs.f).1 xs,
        { c with regs := { c.regs with f := (Alu.add16 a b c.regs.f).2 } }, o⟩ := by
  change actAll (internal ts)
    ⟨onTop (Alu.add16 (Word.ofBytes _ _) (Word.ofBytes _ _) c.regs.f).1 xs,
      { c with regs := { c.regs with
        f := (Alu.add16 (Word.ofBytes _ _) (Word.ofBytes _ _) c.regs.f).2 } }, o⟩ = _
  rw [Word.ofBytes_high_low, Word.ofBytes_high_low]

@[simp] theorem actAll_addSpOffset (offset : UInt8) :
    actAll (internal (.addSpOffset :: ts)) ⟨offset :: xs, c, o⟩
      = actAll (internal ts) ⟨onTop (Alu.addSp c.regs.sp offset).1 xs,
        { c with regs := { c.regs with f := (Alu.addSp c.regs.sp offset).2 } }, o⟩ := rfl

@[simp] theorem actAll_jumpRelative (offset : UInt8) :
    actAll (internal (.jumpRelative :: ts)) ⟨offset :: xs, c, o⟩
      = actAll (internal ts)
        ⟨xs, { c with regs := { c.regs with pc := displaced c.regs.pc offset } }, o⟩ := by
  rw [displaced_eq]
  rfl

@[simp] theorem actAll_stackSlot :
    actAll (internal (.stackSlot :: ts)) ⟨xs, c, o⟩
      = actAll (internal ts)
        ⟨onTop (c.regs.sp - 2) xs, { c with regs := { c.regs with sp := c.regs.sp - 2 } }, o⟩ := rfl

@[simp] theorem actAll_incSp :
    actAll (internal (.incSp :: ts)) ⟨xs, c, o⟩
      = actAll (internal ts) ⟨xs, { c with regs := { c.regs with sp := c.regs.sp + 1 } }, o⟩ := rfl

/-- A word is written in two bytes, each under its address. -/
@[simp] theorem actAll_splitWord (highFirst : Bool) (a w : UInt16) :
    actAll (internal (.splitWord highFirst :: ts)) ⟨onTop a (onTop w xs), c, o⟩
      = actAll (internal ts) ⟨if highFirst then onTop (a + 1) (upper w :: onTop a (lower w :: xs))
          else onTop a (lower w :: onTop (a + 1) (upper w :: xs)), c, o⟩ := by
  change actAll (internal ts) ⟨if highFirst then
      onTop (Word.ofBytes _ _ + 1) (_ :: onTop (Word.ofBytes _ _) (_ :: xs))
    else onTop (Word.ofBytes _ _) (_ :: onTop (Word.ofBytes _ _ + 1) (_ :: xs)), c, o⟩ = _
  rw [Word.ofBytes_high_low, upper_eq, lower_eq]

@[simp] theorem actAll_incHl :
    actAll (internal (.incHl :: ts)) ⟨xs, c, o⟩
      = actAll (internal ts)
        ⟨xs, { c with regs := setWord c.regs .hl (word c.regs .hl + 1) }, o⟩ := by
  rw [setWord_eq, word_eq]
  rfl

@[simp] theorem actAll_decHl :
    actAll (internal (.decHl :: ts)) ⟨xs, c, o⟩
      = actAll (internal ts)
        ⟨xs, { c with regs := setWord c.regs .hl (word c.regs .hl - 1) }, o⟩ := by
  rw [setWord_eq, word_eq]
  rfl

@[simp] theorem actAll_adjust (op : Adjustment) :
    actAll (internal (.adjust op :: ts)) ⟨xs, c, o⟩
      = actAll (internal ts) ⟨xs, { c with regs := { c.regs with
          a := (adjusted op c.regs.a c.regs.f).1, f := (adjusted op c.regs.a c.regs.f).2 } }, o⟩ := by
  rw [adjusted_eq]
  rfl

@[simp] theorem actAll_enableInterrupts :
    actAll (internal (.enableInterrupts :: ts)) ⟨xs, c, o⟩
      = actAll (internal ts) ⟨xs, { c with ime := true }, o⟩ := rfl

end Transfers

/-! ## Blocks -/

section Blocks

variable (xs : List UInt8) (c : Core) (o : Outside β)

omit [Bus β] in
theorem Core.advancePc_of_clear {c : Core} (clear : c.haltBug = false) :
    c.advancePc = { c with regs := { c.regs with pc := c.regs.pc + 1 } } := by
  rw [advancePc, clear]
  rfl

@[simp] theorem actAll_nil (v : Scene β) : actAll [] v = some v := rfl

@[simp] theorem actAll_read (a : UInt16) :
    actAll Microcode.read ⟨onTop a xs, c, o⟩
      = some ⟨(load a o).1 :: xs, c, (load a o).2⟩ := by
  change some (Scene.mk ((o.load (Word.ofBytes _ _)).1 :: xs) c (o.load (Word.ofBytes _ _)).2) = _
  rw [Word.ofBytes_high_low, load_eq]

@[simp] theorem actAll_write (a : UInt16) (value : UInt8) :
    actAll Microcode.write ⟨onTop a (value :: xs), c, o⟩ = some ⟨xs, c, store a value o⟩ := by
  change some (Scene.mk xs c (o.store (Word.ofBytes _ _) value)) = _
  rw [Word.ofBytes_high_low, store_eq]

@[simp] theorem actAll_delay (v : Scene β) : actAll delay v = some v := rfl

variable {c}

@[simp] theorem actAll_operandByte (clear : c.haltBug = false) :
    actAll operandByte ⟨xs, c, o⟩
      = some ⟨(c.nextByte o).1 :: xs, (c.nextByte o).2.1, (c.nextByte o).2.2⟩ := by
  simp only [operandByte, actAll_append, actAll_loadWord, actAll_advancePc, actAll_internal_nil,
    Option.bind_some, actAll_read, Core.advancePc_of_clear clear]
  rfl

@[simp] theorem actAll_operandWord (clear : c.haltBug = false) :
    actAll operandWord ⟨xs, c, o⟩
      = some ⟨onTop (c.nextWord o).1 xs, (c.nextWord o).2.1, (c.nextWord o).2.2⟩ := by
  have clear' : (c.nextByte o).2.1.haltBug = false := clear
  rw [operandWord, actAll_append, actAll_operandByte xs o clear, Option.bind_some,
    actAll_operandByte _ _ clear', onTop, Core.nextWord, joined_eq, Word.high_ofBytes, Word.low_ofBytes]

variable (c)

omit [Bus β] in
/-- The upper of the two addresses below the stack pointer. -/
theorem sub_two_add_one (sp : UInt16) : sp - 2 + 1 = sp - 1 := by
  rw [UInt16.sub_eq_add_neg, UInt16.add_assoc, UInt16.sub_eq_add_neg]
  rfl

omit [Bus β] in
theorem add_one_add_one (sp : UInt16) : sp + 1 + 1 = sp + 2 := UInt16.add_assoc sp 1 1

@[simp] theorem actAll_pushWord (reg : Reg16) :
    actAll (pushWord reg) ⟨xs, c, o⟩
      = some ⟨xs, { c with regs := { c.regs with sp := c.regs.sp - 2 } },
        o.storeAll (Effect.push c.regs (word c.regs reg)).writes⟩ := by
  simp only [pushWord, actAll_append, actAll_loadWord, actAll_stackSlot, actAll_internal_nil,
    Option.bind_some, actAll_delay, actAll_splitWord, if_true, actAll_write, sub_two_add_one]
  rfl

@[simp] theorem actAll_popWord (reg : Reg16) :
    actAll (popWord reg) ⟨xs, c, o⟩
      = some (let (lo, o) := load c.regs.sp o
        let (hi, o) := load (c.regs.sp + 1) o
        let r : Registers := { c.regs with sp := c.regs.sp + 2 }
        ⟨xs, { c with regs := setWord r reg (joined hi lo) }, o⟩) := by
  simp only [popWord, actAll_append, actAll_loadWord, actAll_internal_nil, Option.bind_some,
    actAll_read, actAll_incSp, word, add_one_add_one, setWord_eq, joined_eq]
  rfl

end Blocks

/-! ## Places -/

/-- The byte in a place, and the outside after it was read. -/
def Place.take (p : Place) (r : Registers) (o : Outside β) : UInt8 × Outside β :=
  match p with
  | .reg name => (byte r name, o)
  | .atHl => load (word r .hl) o

theorem carryOut_get (p : Place) (next : UInt8 → Effect) (c : Core) (o : Outside β) :
    (p.get c.regs next).carryOut c o
      = (next (p.take c.regs o).1).carryOut c (p.take c.regs o).2 := by
  cases p <;> rfl

@[simp] theorem actAll_place_read (p : Place) (xs : List UInt8) (c : Core) (o : Outside β) :
    actAll p.read ⟨xs, c, o⟩ = some ⟨(p.take c.regs o).1 :: xs, c, (p.take c.regs o).2⟩ := by
  cases p with
  | reg name => exact actAll_loadByte [] xs c o name
  | atHl =>
    simp only [Place.read, actAll_append, actAll_loadWord, actAll_internal_nil, Option.bind_some,
      actAll_read, Place.take]

@[simp] theorem actAll_place_write (p : Place) (value : UInt8) (xs : List UInt8) (c : Core)
    (o : Outside β) :
    actAll p.write ⟨value :: xs, c, o⟩
      = some ⟨xs, ((p.put c.regs value).carryOut c o).1, ((p.put c.regs value).carryOut c o).2⟩ := by
  cases p with
  | reg name => exact actAll_storeByte [] xs c o name value
  | atHl =>
    simp only [Place.write, actAll_append, actAll_loadWord, actAll_internal_nil, Option.bind_some,
      actAll_write]
    rfl

theorem actAll_change (p : Place) (op : UnaryOp) (c : Core) (o : Outside β) :
    actAll (p.modify op) ⟨[], c, o⟩ = some (bare ((p.change op c.regs).carryOut c o)) := by
  rw [Place.change, carryOut_get]
  simp only [Place.modify, actAll_append, actAll_place_read, actAll_unary, actAll_internal_nil,
    Option.bind_some, actAll_place_write]
  cases p <;> rfl

/-! ## Data -/

theorem actAll_prefixed (i : PrefixedInstruction) (c : Core) (o : Outside β) :
    actAll i.steps ⟨[], c, o⟩ = some (bare (i.meaning.carryOut c o)) := by
  cases i with
  | modify op place => exact actAll_change place op c o
  | testBit n place =>
    change actAll (place.read ++ internal [.testBit n]) _
      = some (bare ((place.get c.regs _).carryOut c o))
    rw [carryOut_get]
    simp only [actAll_append, actAll_place_read, actAll_testBit, actAll_internal_nil,
      Option.bind_some]
    rfl

/-- The accumulator waits under the byte that it is combined with. -/
theorem actAll_accumulate (op : AluOp) (src : Source) {c : Core} (o : Outside β)
    (clear : c.haltBug = false) :
    actAll (internal [.loadByte .a] ++ src.read ++ internal [.alu op] ++ op.keepResult) ⟨[], c, o⟩
      = some (bare ((Instruction.accumulate op src).execute c o)) := by
  have operandByte := actAll_operandByte [c.regs.a] o clear
  cases src with
  | place p =>
    change _ = some (bare ((p.get c.regs _).carryOut c o))
    rw [carryOut_get]
    simp only [actAll_append, actAll_loadByte, actAll_internal_nil, Option.bind_some, Source.read,
      actAll_place_read, actAll_alu]
    cases op <;> rfl
  | immediate =>
    simp only [actAll_append, actAll_loadByte, actAll_internal_nil, Option.bind_some, Source.read,
      byte, operandByte, actAll_alu]
    cases op <;> rfl

/-- What a row of data does is what its instruction means.  The operands are read in front of the
rest of a row, except that an accumulator that is to be stored or combined is fetched first. -/
theorem actAll_of_isData {i : Instruction} (data : i.isData = true) (alone : i ≠ .prefixed)
    {c : Core} (o : Outside β) (clear : c.haltBug = false) :
    actAll i.microprogram.steps ⟨[], c, o⟩ = some (bare (i.execute c o)) := by
  have operandByte (xs : List UInt8) := actAll_operandByte xs o clear
  have operandWord (xs : List UInt8) := actAll_operandWord xs o clear
  cases i with
  | nop | undefined => rfl
  | load dst src =>
    change actAll (src.read ++ dst.write) _ = some (bare ((src.get c.regs _).carryOut c o))
    rw [carryOut_get, actAll_append, actAll_place_read, Option.bind_some, actAll_place_write]
    cases src <;> rfl
  | loadImmediate dst =>
    change actAll (Microcode.operandByte ++ dst.write) _
      = some (bare ((dst.put (c.nextByte o).2.1.regs (c.nextByte o).1).carryOut _ _))
    rw [actAll_append, operandByte, Option.bind_some, actAll_place_write]
    rfl
  | storeA pointer | loadA pointer =>
    cases pointer <;>
      simp only [Instruction.microprogram, Microprogram.straight, Pointer.reg, Pointer.update,
        actAll_append, actAll_nil, actAll_loadByte, actAll_storeByte, actAll_loadWord, actAll_incHl,
        actAll_decHl, actAll_internal_nil, Option.bind_some, actAll_read, actAll_write] <;>
      rfl
  | storeAHigh | loadAHigh | loadHlSpOffset | addSpOffset =>
    simp only [Instruction.microprogram, Microprogram.straight, actAll_append, actAll_loadByte,
      actAll_storeByte, actAll_highPage, actAll_addSpOffset, actAll_storeWord, actAll_internal_nil,
      Option.bind_some, operandByte, actAll_read, actAll_write, actAll_delay]
    rfl
  | storeAAbsolute | loadAAbsolute | loadWordImmediate dst =>
    simp only [Instruction.microprogram, Microprogram.straight, actAll_append, actAll_loadByte,
      actAll_storeByte, actAll_storeWord, actAll_internal_nil, Option.bind_some, operandWord,
      actAll_read, actAll_write]
    rfl
  | storeSp =>
    simp only [Instruction.microprogram, Microprogram.straight, actAll_append, actAll_loadWord,
      actAll_splitWord, actAll_internal_nil, Option.bind_some, operandWord, actAll_write,
      Bool.false_eq_true, if_false]
    rfl
  | storeAHighC | loadAHighC | loadSpHl | adjust op | incWord reg | decWord reg | addHl src =>
    simp only [Instruction.microprogram, Microprogram.straight, actAll_append, actAll_loadByte,
      actAll_storeByte, actAll_highPage, actAll_loadWord, actAll_storeWord, actAll_incWord,
      actAll_decWord, actAll_addWords, actAll_adjust, actAll_internal_nil, Option.bind_some,
      actAll_read, actAll_write, actAll_delay]
    rfl
  | accumulate op src => exact actAll_accumulate op src o clear
  | modify op place => exact actAll_change place op c o
  | prefixed => exact absurd rfl alone
  | _ => cases data

/-- A prefixed instruction is two rows, the second chosen by the byte that the first one reads. -/
theorem ends_of_isData {i : Instruction} (data : i.isData = true) {c : Core} (o : Outside β)
    (clear : c.haltBug = false) :
    Ends i.microprogram.position ⟨[], c, o⟩ (bare (i.execute c o)) := by
  by_cases prefixed : i = .prefixed
  · subst prefixed
    refine .row (actAll_operandByte [] o clear) (.move rfl (.last ?_))
    rw [← prefixedInstruction_eq]
    exact actAll_prefixed _ _ _
  · have acts := actAll_of_isData data prefixed o clear
    have retires : i.microprogram.exit = .retire := by
      cases i with
      | prefixed => exact absurd rfl prefixed
      | jumpRelative _ | jump _ | call _ | retIf _ => cases data
      | _ => rfl
    rw [Microprogram.position, retires]
    exact .last acts

/-! ## Control flow and the machine stack -/

/-- What a row of control flow does is what its instruction means.  Where there is a condition, the
operand is read in front of it, and a `RET` waits in front of it. -/
theorem ends_of_isControl {i : Instruction} (control : i.isControl = true) {c : Core}
    (o : Outside β) (clear : c.haltBug = false) :
    Ends i.microprogram.position ⟨[], c, o⟩ (bare (i.execute c o)) := by
  have operandByte := actAll_operandByte [] o clear
  have operandWord := actAll_operandWord [] o clear
  cases i with
  | push reg => exact .last (actAll_pushWord [] c o reg)
  | pop reg => exact .last (actAll_popWord [] c o reg)
  | jumpHl =>
    refine .last ?_
    simp only [Instruction.microprogram, Microprogram.straight, actAll_loadWord, actAll_storeWord,
      actAll_internal_nil]
    rfl
  | ret | reti =>
    refine .last ?_
    simp only [Instruction.microprogram, Microprogram.straight, actAll_append, actAll_popWord,
      Option.bind_some, actAll_delay, actAll_enableInterrupts, actAll_internal_nil]
    rfl
  | restart target =>
    refine .last ?_
    simp only [Instruction.microprogram, Microprogram.straight, actAll_append, actAll_pushWord,
      Option.bind_some, actAll_constant, actAll_storeWord, actAll_internal_nil]
    rfl
  | jumpRelative condition =>
    refine .row operandByte ?_
    change Ends _ _ (bare ((Action.set (if holds c.regs.f condition then _ else _)).carryOut _ _))
    by_cases met : holds c.regs.f condition = true
    · rw [if_pos met]
      refine .taken met ?_
      simp only [actAll_append, actAll_delay, Option.bind_some, actAll_jumpRelative,
        actAll_internal_nil]
      rfl
    · rw [if_neg met]
      exact .untaken [_] met
  | jump condition =>
    refine .row operandWord ?_
    change Ends _ _ (bare ((Action.set (if holds c.regs.f condition then _ else _)).carryOut _ _))
    by_cases met : holds c.regs.f condition = true
    · rw [if_pos met]
      refine .taken met ?_
      simp only [actAll_append, actAll_delay, Option.bind_some, actAll_storeWord,
        actAll_internal_nil]
      rfl
    · rw [if_neg met]
      exact .untaken [_, _] met
  | call condition =>
    refine .row operandWord ?_
    change Ends _ _ (bare ((if holds c.regs.f condition then _ else _ : Action).carryOut _ _))
    by_cases met : holds c.regs.f condition = true
    · rw [if_pos met]
      refine .taken met ?_
      simp only [actAll_append, actAll_pushWord, Option.bind_some, actAll_storeWord,
        actAll_internal_nil]
      rfl
    · rw [if_neg met]
      exact .untaken [_, _] met
  | retIf condition =>
    refine .row (actAll_delay _) ?_
    change Ends _ _ (bare ((if holds c.regs.f condition then _ else _ : Action).carryOut _ _))
    by_cases met : holds c.regs.f condition = true
    · rw [if_pos met]
      refine .taken met ?_
      simp only [actAll_append, actAll_popWord, actAll_delay, Option.bind_some]
      rfl
    · rw [if_neg met]
      exact .untaken [] met
  | _ => cases control

end Sm83
