import Sm83.Proofs.Execution.Manual

/-!
# What instructions mean

The instruction set without microcode: an instruction as one act.  It takes operand bytes from behind
its opcode, reads memory at most once, and then gives all registers their new contents and makes its
writes.  Between these there is nothing, so what an instruction computes is a function of the
registers, the operand and the byte or word that was read.

* `Meaning`, `Action`, `Effect` — such acts, in the order of their data accesses: operand bytes at
  ascending addresses, the read, the writes.
* `Instruction.meaning?`, `PrefixedInstruction.meaning` — the act of each instruction that has no
  business with the interrupt state or the clock.
* `executeNext` — the next instruction in one go: fetch the opcode at the program counter, look it up
  in the opcode map, do what it means.

All this is put in the terms of the manual, with results of the arithmetic unit, and nowhere in those
of the microcode that runs.  Addresses and word registers are words, so all arithmetic on them is modulo
`2 ^ 16`.
-/

namespace Sm83

/-! ## Acts -/

/-- How an instruction ends. -/
structure Effect where
  /-- The contents of all registers. -/
  regs : Registers
  /-- The writes, in order. -/
  writes : List (UInt16 × UInt8) := []
  /-- Interrupts are enabled. -/
  enables : Bool := false

/-- What an instruction does once it has its operand. -/
inductive Action
  | finish (e : Effect)
  /-- Read the byte at an address. -/
  | read (a : UInt16) (next : UInt8 → Effect)
  /-- Read the word at an address, low byte first. -/
  | readWord (a : UInt16) (next : UInt16 → Effect)

/-- What an instruction means, as a function of the registers with the program counter behind it. -/
inductive Meaning
  /-- There is no operand. -/
  | plain (act : Registers → Action)
  /-- A byte follows the opcode. -/
  | byte (act : Registers → UInt8 → Action)
  /-- A word follows the opcode, low byte first. -/
  | word (act : Registers → UInt16 → Action)

/-! ## Carrying them out -/

variable {β : Type} [Bus β]

/-- Make writes, one after the other. -/
def Outside.storeAll (o : Outside β) : List (UInt16 × UInt8) → Outside β
  | [] => o
  | (a, value) :: rest => (Manual.store a value o).storeAll rest

/-- Give the registers their contents and make the writes. -/
def Effect.carryOut (e : Effect) (c : Core) (o : Outside β) : Core × Outside β :=
  ({ c with regs := e.regs, ime := e.enables || c.ime }, o.storeAll e.writes)

/-- Read what is to be read, and finish. -/
def Action.carryOut (act : Action) (c : Core) (o : Outside β) : Core × Outside β :=
  match act with
  | .finish e => e.carryOut c o
  | .read a next =>
    let (value, o) := Manual.load a o
    (next value).carryOut c o
  | .readWord a next =>
    let (lo, o) := Manual.load a o
    let (hi, o) := Manual.load (a + 1) o
    (next (Manual.joined hi lo)).carryOut c o

/-- The byte at the program counter, which moves on. -/
def Core.nextByte (c : Core) (o : Outside β) : UInt8 × Core × Outside β :=
  ((Manual.load c.regs.pc o).1, { c with regs := { c.regs with pc := c.regs.pc + 1 } },
    (Manual.load c.regs.pc o).2)

/-- The word at the program counter, low byte first. -/
def Core.nextWord (c : Core) (o : Outside β) : UInt16 × Core × Outside β :=
  let low := c.nextByte o
  let high := low.2.1.nextByte low.2.2
  (Manual.joined high.1 low.1, high.2)

/-- Take the operand, and act. -/
def Meaning.carryOut (m : Meaning) (c : Core) (o : Outside β) : Core × Outside β :=
  match m with
  | .plain act => (act c.regs).carryOut c o
  | .byte act =>
    let (value, c, o) := c.nextByte o
    (act c.regs value).carryOut c o
  | .word act =>
    let (value, c, o) := c.nextWord o
    (act c.regs value).carryOut c o

/-! ## Places -/

/-- Nothing but the registers change. -/
def Action.set (regs : Registers) : Action := .finish { regs := regs }

/-- Nothing but one byte of memory changes, and the registers. -/
def Action.write (regs : Registers) (a : UInt16) (value : UInt8) : Action :=
  .finish { regs := regs, writes := [(a, value)] }

/-- Put a byte into a place. -/
def Place.put (p : Place) (r : Registers) (value : UInt8) : Effect :=
  match p with
  | .reg name => { regs := Manual.setByte r name value }
  | .atHl => { regs := r, writes := [(Manual.word r .hl, value)] }

/-- Get a byte from a place, and go on with it. -/
def Place.get (p : Place) (r : Registers) (next : UInt8 → Effect) : Action :=
  match p with
  | .reg name => .finish (next (Manual.byte r name))
  | .atHl => .read (Manual.word r .hl) next

/-- Change the byte in a place. -/
def Place.change (p : Place) (op : UnaryOp) (r : Registers) : Action :=
  p.get r fun value =>
    let (result, flags) := Manual.changed op value r.f
    p.put { r with f := flags } result

/-- The address in a pointer. -/
def Pointer.address (p : Pointer) (r : Registers) : UInt16 :=
  match p with
  | .bc => Manual.word r .bc
  | .de => Manual.word r .de
  | .hlInc | .hlDec => Manual.word r .hl

/-- The registers after the address in a pointer was used. -/
def Pointer.used (p : Pointer) (r : Registers) : Registers :=
  match p with
  | .bc | .de => r
  | .hlInc => Manual.setWord r .hl (Manual.word r .hl + 1)
  | .hlDec => Manual.setWord r .hl (Manual.word r .hl - 1)

/-- An address in the last page. -/
def highPage (offset : UInt8) : UInt16 := Manual.joined 0xFF offset

/-! ## The machine stack -/

/-- Put a word on the machine stack: the stack pointer is lowered by two, the high byte goes to the
upper address and is written first. -/
def Effect.push (r : Registers) (value : UInt16) : Effect :=
  { regs := { r with sp := r.sp - 2 }
    writes := [(r.sp - 1, Manual.upper value), (r.sp - 2, Manual.lower value)] }

/-- Put the program counter on the machine stack and go elsewhere. -/
def Effect.call (r : Registers) (target : UInt16) : Effect :=
  { Effect.push r r.pc with regs := { r with sp := r.sp - 2, pc := target } }

/-- Take a word off the machine stack. -/
def Action.pop (r : Registers) (next : Registers → UInt16 → Effect) : Action :=
  .readWord r.sp fun value => next { r with sp := r.sp + 2 } value

/-- Take the program counter off the machine stack. -/
def Action.ret (r : Registers) : Action := .pop r fun r target => { regs := { r with pc := target } }

/-! ## Instructions -/

/-- The registers after the accumulator was combined with a byte. -/
def AluOp.accumulate (op : AluOp) (r : Registers) (value : UInt8) : Registers :=
  let (result, flags) := Manual.combined op r.a value r.f.c
  { r with a := result, f := flags }

/-- What an instruction means, of those that mean something to registers and memory alone. -/
def Instruction.meaning? : Instruction → Option Meaning
  | .nop | .undefined => some (.plain .set)
  | .stop | .halt | .prefixed | .disableInterrupts | .enableInterrupts => none
  | .load dst src => some (.plain fun r => src.get r (dst.put r))
  | .loadImmediate dst => some (.byte fun r value => .finish (dst.put r value))
  | .storeA pointer => some (.plain fun r => .write (pointer.used r) (pointer.address r) r.a)
  | .loadA pointer =>
    some (.plain fun r => .read (pointer.address r) fun value =>
      { regs := pointer.used { r with a := value } })
  | .storeAHigh => some (.byte fun r offset => .write r (highPage offset) r.a)
  | .loadAHigh =>
    some (.byte fun r offset => .read (highPage offset) fun value => { regs := { r with a := value } })
  | .storeAHighC => some (.plain fun r => .write r (highPage r.c) r.a)
  | .loadAHighC =>
    some (.plain fun r => .read (highPage r.c) fun value => { regs := { r with a := value } })
  | .storeAAbsolute => some (.word fun r a => .write r a r.a)
  | .loadAAbsolute =>
    some (.word fun r a => .read a fun value => { regs := { r with a := value } })
  | .loadWordImmediate dst => some (.word fun r value => .set (Manual.setWord r dst value))
  | .storeSp =>
    some (.word fun r a => .finish
      { regs := r, writes := [(a, Manual.lower r.sp), (a + 1, Manual.upper r.sp)] })
  | .loadSpHl => some (.plain fun r => .set { r with sp := Manual.word r .hl })
  | .loadHlSpOffset =>
    some (.byte fun r offset =>
      let (result, flags) := Alu.addSp r.sp offset
      .set (Manual.setWord { r with f := flags } .hl result))
  | .push reg => some (.plain fun r => .finish (.push r (Manual.word r reg)))
  | .pop reg => some (.plain fun r => .pop r fun r value => { regs := Manual.setWord r reg value })
  | .accumulate op (.place p) =>
    some (.plain fun r => p.get r fun value => { regs := op.accumulate r value })
  | .accumulate op .immediate => some (.byte fun r value => .set (op.accumulate r value))
  | .modify op place => some (.plain (place.change op))
  | .adjust op =>
    some (.plain fun r =>
      let (a, flags) := Manual.adjusted op r.a r.f
      .set { r with a := a, f := flags })
  | .incWord reg => some (.plain fun r => .set (Manual.setWord r reg (Manual.word r reg + 1)))
  | .decWord reg => some (.plain fun r => .set (Manual.setWord r reg (Manual.word r reg - 1)))
  | .addHl src =>
    some (.plain fun r =>
      let (result, flags) := Alu.add16 (Manual.word r .hl) (Manual.word r src) r.f
      .set (Manual.setWord { r with f := flags } .hl result))
  | .addSpOffset =>
    some (.byte fun r offset =>
      let (result, flags) := Alu.addSp r.sp offset
      .set { r with sp := result, f := flags })
  | .jumpRelative condition =>
    some (.byte fun r offset =>
      .set (if Manual.holds r.f condition then { r with pc := Manual.displaced r.pc offset } else r))
  | .jump condition =>
    some (.word fun r target =>
      .set (if Manual.holds r.f condition then { r with pc := target } else r))
  | .jumpHl => some (.plain fun r => .set { r with pc := Manual.word r .hl })
  | .call condition =>
    some (.word fun r target =>
      if Manual.holds r.f condition then .finish (.call r target) else .set r)
  | .ret => some (.plain .ret)
  | .retIf condition => some (.plain fun r => if Manual.holds r.f condition then .ret r else .set r)
  | .reti =>
    some (.plain fun r => .pop r fun r target => { regs := { r with pc := target }, enables := true })
  | .restart target => some (.plain fun r => .finish (.call r (UInt16.ofNat (8 * target.val))))

/-- What an instruction behind the prefix means. -/
def PrefixedInstruction.meaning : PrefixedInstruction → Meaning
  | .modify op place => .plain (place.change op)
  | .testBit n place =>
    .plain fun r => place.get r fun value => { regs := { r with f := Alu.bit n value r.f } }

/-! ## In one go -/

/-- Carry out an instruction whose opcode was fetched.  The instructions without a meaning do
nothing. -/
def Instruction.execute (i : Instruction) (c : Core) (o : Outside β) : Core × Outside β :=
  match i with
  | .prefixed =>
    let (second, c, o) := c.nextByte o
    (Manual.prefixedInstruction second).meaning.carryOut c
      (o.note (.decoded .prefixed second c.opcodeAddress))
  | .undefined => (c, o.note (.undefinedOpcode c.opcodeAddress))
  | i =>
    match i.meaning? with
    | some m => m.carryOut c o
    | none => (c, o)

/-- The next instruction. -/
def executeNext (c : Core) (o : Outside β) : Core × Outside β :=
  let (opcode, c, o) := Core.nextByte { c with opcodeAddress := c.regs.pc } o
  (Manual.instruction opcode).execute c (o.note (.decoded .base opcode c.opcodeAddress))

/-- Instructions that move and compute data. -/
def Instruction.isData : Instruction → Bool
  | .nop | .undefined | .prefixed | .load _ _ | .loadImmediate _ | .storeA _ | .loadA _ | .storeAHigh
  | .loadAHigh | .storeAHighC | .loadAHighC | .storeAAbsolute | .loadAAbsolute
  | .loadWordImmediate _ | .storeSp | .loadSpHl | .loadHlSpOffset | .accumulate _ _ | .modify _ _
  | .adjust _ | .incWord _ | .decWord _ | .addHl _ | .addSpOffset => true
  | _ => false

/-- Instructions that move the program counter or use the machine stack. -/
def Instruction.isControl : Instruction → Bool
  | .jumpRelative _ | .jump _ | .jumpHl | .call _ | .ret | .retIf _ | .reti | .restart _ | .push _
  | .pop _ => true
  | _ => false

/-- Except for the pops, control flow leaves all registers alone but the two that are words. -/
theorem Instruction.execute_regs_of_isControl {i : Instruction} (control : i.isControl = true)
    (keeps : ∀ reg, i ≠ .pop reg) (c : Core) (o : Outside β) :
    ∃ sp pc, (i.execute c o).1.regs = { c.regs with sp := sp, pc := pc } := by
  cases i with
  | pop reg => exact absurd rfl (keeps reg)
  | push reg | jumpHl | ret | reti | restart target => exact ⟨_, _, rfl⟩
  | jumpRelative condition | jump condition =>
    change ∃ sp pc, (if Manual.holds c.regs.f condition then _ else _ : Registers) = _
    split <;> exact ⟨_, _, rfl⟩
  | call condition | retIf condition =>
    change ∃ sp pc,
      ((if Manual.holds c.regs.f condition then _ else _ : Action).carryOut _ _).1.regs = _
    split <;> exact ⟨_, _, rfl⟩
  | _ => cases control

end Sm83
