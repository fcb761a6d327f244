import Sm83.Proofs.Microstep.Scene

/-!
# What each micro-step does

Every micro-step as a function on scenes.  `act` takes bytes off the front of a list and puts bytes
there, and is undefined where there are too few; beside the list, a transfer changes only the core and
a machine cycle only the outside.

`Performs.microStep` ties the two readings together: where `act` leads to a scene whose stack fits the
buffer, the step carried out on a machine leads there too.  With it a row of steps can be evaluated
by unfolding `act`.
-/

namespace Sm83

/-- A word in front of a list of bytes, its high byte first. -/
def onTop (w : UInt16) (xs : List UInt8) : List UInt8 := Word.high w :: Word.low w :: xs

/-! ## Inside the processor -/

namespace Core

/-- Move the program counter on, or disarm the HALT bug. -/
def advancePc (c : Core) : Core :=
  if c.haltBug then { c with haltBug := false }
  else { c with regs := { c.regs with pc := c.regs.pc + 1 } }

@[simp] theorem advancePc_opcodeAddress (c : Core) :
    c.advancePc.opcodeAddress = c.opcodeAddress := by
  rw [advancePc]
  split <;> rfl

@[simp] theorem advancePc_f (c : Core) : c.advancePc.regs.f = c.regs.f := by
  rw [advancePc]
  split <;> rfl

/-- The core with which a handler starts. -/
def disarm (c : Core) : Core :=
  { c with
    ime := false, imePending := false, imeDelay := false, haltBug := false
    regs := { c.regs with pc := if c.haltBug then c.regs.pc - 1 else c.regs.pc } }

end Core

/-- What a transfer does to the bytes on the scratch stack and to the core. -/
def Transfer.act : Transfer → List UInt8 → Core → Option (List UInt8 × Core)
  | .loadByte reg, xs, c => some (c.regs.byte reg :: xs, c)
  | .storeByte reg, value :: xs, c => some (xs, { c with regs := c.regs.setByte reg value })
  | .loadWord reg, xs, c => some (onTop (c.regs.word reg) xs, c)
  | .storeWord reg, hi :: lo :: xs, c =>
    some (xs, { c with regs := c.regs.setWord reg (Word.ofBytes hi lo) })
  | .constant value, xs, c => some (onTop value xs, c)
  | .advancePc, xs, c => some (xs, c.advancePc)
  | .highPage, offset :: xs, c => some (onTop (Word.ofBytes 0xFF offset) xs, c)
  | .alu op, b :: a :: xs, c =>
    let (result, flags) := op.apply a b c.regs.f.c
    some (if op = .cp then xs else result :: xs, { c with regs := { c.regs with f := flags } })
  | .unary op, value :: xs, c =>
    let (result, flags) := op.apply value c.regs.f
    some (result :: xs, { c with regs := { c.regs with f := flags } })
  | .testBit n, value :: xs, c =>
    some (xs, { c with regs := { c.regs with f := Alu.bit n value c.regs.f } })
  | .incWord, hi :: lo :: xs, c => some (onTop (Word.ofBytes hi lo + 1) xs, c)
  | .decWord, hi :: lo :: xs, c => some (onTop (Word.ofBytes hi lo - 1) xs, c)
  | .addWords, bh :: bl :: ah :: al :: xs, c =>
    let (result, flags) := Alu.add16 (Word.ofBytes ah al) (Word.ofBytes bh bl) c.regs.f
    some (onTop result xs, { c with regs := { c.regs with f := flags } })
  | .addSpOffset, offset :: xs, c =>
    let (result, flags) := Alu.addSp c.regs.sp offset
    some (onTop result xs, { c with regs := { c.regs with f := flags } })
  | .jumpRelative, offset :: xs, c =>
    some (xs, { c with regs := { c.regs with pc := c.regs.pc + Word.signExtend offset } })
  | .stackSlot, xs, c =>
    some (onTop (c.regs.sp - 2) xs, { c with regs := { c.regs with sp := c.regs.sp - 2 } })
  | .incSp, xs, c => some (xs, { c with regs := { c.regs with sp := c.regs.sp + 1 } })
  | .splitWord highFirst, ah :: al :: hi :: lo :: xs, c =>
    let address := Word.ofBytes ah al
    some (if highFirst then onTop (address + 1) (hi :: onTop address (lo :: xs))
      else onTop address (lo :: onTop (address + 1) (hi :: xs)), c)
  | .incHl, xs, c => some (xs, { c with regs := c.regs.setWord .hl (c.regs.word .hl + 1) })
  | .decHl, xs, c => some (xs, { c with regs := c.regs.setWord .hl (c.regs.word .hl - 1) })
  | .adjust op, xs, c =>
    let (a, flags) := op.apply c.regs.a c.regs.f
    some (xs, { c with regs := { c.regs with a := a, f := flags } })
  | .enableInterruptsLater, xs, c => some (xs, { c with imePending := c.imePending || !c.ime })
  | .disableInterrupts, xs, c =>
    some (xs, { c with ime := false, imePending := false, imeDelay := false })
  | .enableInterrupts, xs, c => some (xs, { c with ime := true })
  -- too few bytes
  | .storeByte _, _, _ | .storeWord _, _, _ | .highPage, _, _ | .alu _, _, _ | .unary _, _, _
  | .testBit _, _, _ | .incWord, _, _ | .decWord, _, _ | .addWords, _, _ | .addSpOffset, _, _
  | .jumpRelative, _, _ | .splitWord _, _, _ => none

/-! ## Beyond the processor -/

variable {β : Type} [Bus β]

/-- What a machine cycle does to the bytes on the scratch stack and to the outside. -/
def MachineCycle.act : MachineCycle → List UInt8 → Outside β → Option (List UInt8 × Outside β)
  | .read, hi :: lo :: xs, o =>
    let (value, o) := o.load (Word.ofBytes hi lo)
    some (value :: xs, o)
  | .write, hi :: lo :: value :: xs, o => some (xs, o.store (Word.ofBytes hi lo) value)
  | .delay, xs, o => some (xs, o)
  | _, _, _ => none

/-- What the steps in no time that reach beyond the processor do.  The acknowledge is undefined where
there is nothing to acknowledge. -/
def Control.act : Control → Scene β → Option (Scene β)
  | .halt, ⟨xs, c, o⟩ =>
    let (pending, bus) := Bus.poll o.bus
    let o := { o with bus := bus }
    some (if c.ime || pending.isEmpty then
        ⟨xs, { c with halted := true }, o.note (.enteredHalt c.opcodeAddress)⟩
      else ⟨xs, { c with haltBug := true }, o.note (.haltBugArmed c.opcodeAddress pending)⟩)
  | .stop, ⟨xs, c, o⟩ =>
    match o.speed.map SpeedSwitch.switch with
    | some (true, speed) =>
      some ⟨xs, c, { o with speed := some speed }.note (.speedSwitched speed.doubleSpeed)⟩
    | _ => some ⟨xs, c, o.note (.stopIgnored c.opcodeAddress)⟩
  | .undefined, ⟨xs, c, o⟩ => some ⟨xs, c, o.note (.undefinedOpcode c.opcodeAddress)⟩
  | .acknowledge, ⟨xs, c, o⟩ =>
    let c := c.disarm
    let (enabled, requested, bus) := Bus.interruptBytes o.bus
    match (InterruptSet.ofByte (enabled &&& requested)).first? with
    | none => none
    | some line =>
      let o := { o with bus := Bus.write requestAddress (requested &&& ~~~line.bits) bus }
      some ⟨onTop line.vector xs, c,
        o.note (.dispatched line c.regs.pc c.regs.sp requested enabled)⟩

/-- What a micro-step does. -/
def MicroStep.act : MicroStep → Scene β → Option (Scene β)
  | .transfer t, ⟨xs, c, o⟩ => (t.act xs c).map fun (xs, c) => ⟨xs, c, o⟩
  | .control s, v => s.act v
  | .cycle s, ⟨xs, c, o⟩ => (s.act xs o).map fun (xs, o) => ⟨xs, c, o⟩

/-- What a row of steps does. -/
def actAll : List MicroStep → Scene β → Option (Scene β)
  | [], v => some v
  | s :: rest, v => (s.act v).bind (actAll rest)

theorem actAll_append (steps rest : List MicroStep) (v : Scene β) :
    actAll (steps ++ rest) v = (actAll steps v).bind (actAll rest) := by
  induction steps generalizing v with
  | nil => rfl
  | cons s steps ih =>
    simp only [List.cons_append, actAll, Option.bind_assoc]
    exact Option.bind_congr fun v' _ => ih v'

/-! ## Carrying out a step does what it does -/

namespace Performs

open Machine

section Transfers

variable {xs ys : List UInt8} {c c' : Core} {o : Outside β}

omit [Bus β]

theorem advancePc : Performs (onCpu Transfer.advancePc.run) ⟨xs, c, o⟩ () ⟨xs, c.advancePc, o⟩ := by
  rintro before m ⟨⟩
  refine ⟨_, rfl, ?_, ?_⟩
  all_goals cases h : m.cpu.haltBug
  all_goals simp [Machine.scene, Core.advancePc, Cpu.core, Cpu.frame, h]

/-- Splitting a word leaves two bytes with their addresses; the one on top is written first. -/
theorem splitWord (highFirst : Bool) (ah al hi lo : UInt8)
    (room : xs.length + 6 ≤ scratchCapacity) :
    Performs (onCpu (Transfer.splitWord highFirst).run) ⟨ah :: al :: hi :: lo :: xs, c, o⟩ ()
      ⟨if highFirst then onTop (Word.ofBytes ah al + 1) (hi :: onTop (Word.ofBytes ah al) (lo :: xs))
        else onTop (Word.ofBytes ah al) (lo :: onTop (Word.ofBytes ah al + 1) (hi :: xs)), c, o⟩ := by
  have pushes (b b' : UInt8) (a a' : UInt16) :
      Performs (onCpu do
        Cpu.pushByte b; Cpu.pushWord a; Cpu.pushByte b'; Cpu.pushWord a') ⟨xs, c, o⟩ ()
        ⟨onTop a' (b' :: onTop a (b :: xs)), c, o⟩ := by
    refine (pushByte c o b ?_).onCpu_bind <| (pushWord c o a ?_).onCpu_bind <|
      (pushByte c o b' ?_).onCpu_bind <| pushWord c o a' ?_
    · omega
    all_goals
      simp only [List.length_cons]
      omega
  refine (popWord c o ah al).onCpu_bind <| (popWord c o hi lo).onCpu_bind ?_
  simp only [Word.high_ofBytes, Word.low_ofBytes]
  cases highFirst with
  | true => exact pushes lo hi _ _
  | false => exact pushes hi lo _ _

/-- A transfer does to a machine what it does to the stack and the core, where the stack that it
leaves fits the buffer.  Within a transfer everything is taken off before anything is put on, so the
stack is never deeper than before or after. -/
theorem transfer {t : Transfer} (h : t.act xs c = some (ys, c'))
    (room : ys.length ≤ scratchCapacity) :
    Performs (onCpu t.run) ⟨xs, c, o⟩ () ⟨ys, c', o⟩ := by
  match t, xs, h with
  | .loadByte reg, xs, rfl => exact (getRegs c o).onCpu_bind (pushByte c o _ room)
  | .storeByte reg, value :: xs, rfl => exact (popByte c o value).onCpu_bind (modifyRegs c o _)
  | .loadWord reg, xs, rfl => exact (getRegs c o).onCpu_bind (pushWord c o _ room)
  | .storeWord reg, hi :: lo :: xs, rfl =>
    exact (popWord c o hi lo).onCpu_bind (modifyRegs c o _)
  | .constant value, xs, rfl => exact pushWord c o value room
  | .advancePc, xs, rfl => exact advancePc
  | .highPage, offset :: xs, rfl => exact (popByte c o offset).onCpu_bind (pushWord c o _ room)
  | .alu op, b :: a :: xs, rfl =>
    refine (popByte c o b).onCpu_bind <| (popByte c o a).onCpu_bind <|
      (getRegs c o).onCpu_bind <| (modifyRegs c o _).onCpu_bind ?_
    by_cases compares : op = .cp
    · simp only [compares, if_true]
      exact onCpu_pure () _
    · simp only [compares, if_false] at room ⊢
      exact pushByte _ o _ room
  | .unary op, value :: xs, rfl =>
    exact (popByte c o value).onCpu_bind <| (getRegs c o).onCpu_bind <|
      (modifyRegs c o _).onCpu_bind <| pushByte _ o _ room
  | .testBit n, value :: xs, rfl => exact (popByte c o value).onCpu_bind (modifyRegs c o _)
  | .incWord, hi :: lo :: xs, rfl => exact (popWord c o hi lo).onCpu_bind (pushWord c o _ room)
  | .decWord, hi :: lo :: xs, rfl => exact (popWord c o hi lo).onCpu_bind (pushWord c o _ room)
  | .addWords, bh :: bl :: ah :: al :: xs, rfl =>
    exact (popWord c o bh bl).onCpu_bind <| (popWord c o ah al).onCpu_bind <|
      (getRegs c o).onCpu_bind <| (modifyRegs c o _).onCpu_bind <| pushWord _ o _ room
  | .addSpOffset, offset :: xs, rfl =>
    exact (popByte c o offset).onCpu_bind <| (getRegs c o).onCpu_bind <|
      (modifyRegs c o _).onCpu_bind <| pushWord _ o _ room
  | .jumpRelative, offset :: xs, rfl => exact (popByte c o offset).onCpu_bind (modifyRegs c o _)
  | .stackSlot, xs, rfl =>
    exact (modifyRegs c o _).onCpu_bind <| (getRegs _ o).onCpu_bind <| pushWord _ o _ room
  | .incSp, xs, rfl => exact modifyRegs c o fun r => { r with sp := r.sp + 1 }
  | .splitWord highFirst, ah :: al :: hi :: lo :: xs, rfl =>
    refine splitWord highFirst ah al hi lo ?_
    cases highFirst with
    | true => exact room
    | false => exact room
  | .incHl, xs, rfl => exact modifyRegs c o fun r => r.setWord .hl (r.word .hl + 1)
  | .decHl, xs, rfl => exact modifyRegs c o fun r => r.setWord .hl (r.word .hl - 1)
  | .adjust op, xs, rfl =>
    exact modifyRegs c o fun r => { r with a := (op.apply r.a r.f).1, f := (op.apply r.a r.f).2 }
  | .enableInterruptsLater, xs, rfl | .disableInterrupts, xs, rfl | .enableInterrupts, xs, rfl =>
    rintro before m ⟨⟩
    exact ⟨_, rfl, rfl, rfl⟩

end Transfers

section Beyond

variable {xs ys : List UInt8} {c : Core} {o o' : Outside β} {v v' : Scene β}

/-- A machine cycle does to a machine what it does to the stack and the outside. -/
theorem cycle {s : MachineCycle} (h : s.act xs o = some (ys, o'))
    (room : ys.length ≤ scratchCapacity) : Performs s.run ⟨xs, c, o⟩ () ⟨ys, c, o'⟩ := by
  match s, xs, h with
  | .read, hi :: lo :: xs, rfl =>
    exact (popWord c o hi lo).bind <| (readData xs c o _).bind <| pushByte c _ _ room
  | .write, hi :: lo :: value :: xs, rfl =>
    exact (popWord c o hi lo).bind <| (popByte c o value).bind <| writeData xs c o _ value
  | .delay, xs, rfl => exact Performs.pure () _

omit [Bus β] in
/-- The processor that a computation looks at has the core of the scene. -/
theorem getCpu_bind_core {α : Type} {f : Cpu → MachineM β α} {a : α}
    (h : ∀ cpu, cpu.core = v.core → cpu.speed = v.out.speed → Performs (f cpu) v a v') :
    Performs (Machine.getCpu >>= f) v a v' := by
  rintro before m ⟨⟩
  exact h m.cpu rfl rfl before m rfl

theorem halt (h : Control.halt.act v = some v') : Performs Machine.halt v () v' := by
  obtain ⟨xs, c, o⟩ := v
  have halts (o : Outside β) : Performs (modifyCpu ({ · with halted := true })) ⟨xs, c, o⟩ ()
      ⟨xs, { c with halted := true }, o⟩ := by
    rintro before m ⟨⟩
    exact ⟨_, rfl, rfl, rfl⟩
  have arms (o : Outside β) : Performs (modifyCpu ({ · with haltBug := true })) ⟨xs, c, o⟩ ()
      ⟨xs, { c with haltBug := true }, o⟩ := by
    rintro before m ⟨⟩
    exact ⟨_, rfl, rfl, rfl⟩
  refine (pollInterrupts xs c o).bind <| getCpu_bind_core fun cpu hc _ => ?_
  have ime : cpu.ime = c.ime := congrArg Core.ime hc
  have address : cpu.opcodeAddress = c.opcodeAddress := congrArg Core.opcodeAddress hc
  simp only [Control.act, Option.some.injEq] at h
  rw [ime, address, ← h]
  split
  · exact (halts _).bind (emit _ _ _ _)
  · exact (arms _).bind (emit _ _ _ _)

theorem stop (h : Control.stop.act v = some v') : Performs Machine.stop v () v' := by
  obtain ⟨xs, c, o⟩ := v
  refine getCpu_bind_core fun cpu hc hs => ?_
  have address : cpu.opcodeAddress = c.opcodeAddress := congrArg Core.opcodeAddress hc
  have speed : cpu.speed = o.speed := hs
  rw [Control.act] at h
  rw [speed, address]
  -- only a switch that was prepared does more than to be noted
  match o.speed.map SpeedSwitch.switch, h with
  | some (true, switched), h =>
    cases h
    have switches : Performs (modifyCpu ({ · with speed := some switched })) ⟨xs, c, o⟩ ()
        ⟨xs, c, { o with speed := some switched }⟩ := by
      rintro before m ⟨⟩
      exact ⟨_, rfl, rfl, rfl⟩
    exact switches.bind (emit _ _ _ _)
  | some (false, _), h | none, h =>
    cases h
    exact emit _ _ _ _

theorem acknowledge (h : Control.acknowledge.act v = some v')
    (room : v'.stack.length ≤ scratchCapacity) : Performs Machine.acknowledge v () v' := by
  obtain ⟨xs, c, o⟩ := v
  have disarms : Performs (modifyCpu disarm) ⟨xs, c, o⟩ () ⟨xs, c.disarm, o⟩ := by
    rintro before m ⟨⟩
    exact ⟨_, rfl, rfl, rfl⟩
  refine disarms.bind <| (readBus _ _ _ _).bind <| (readBus _ _ _ _).bind ?_
  simp only [Control.act, Bus.interruptBytes] at h
  match (InterruptSet.ofByte _).first?, h with
  | some line, h =>
    cases h
    refine getCpu_bind_core fun cpu hc _ => ?_
    have regs : cpu.regs = c.disarm.regs := congrArg Core.regs hc
    rw [regs]
    -- the event is recorded before the request is withdrawn, which makes no difference
    exact (emit _ _ _ _).bind <| (writeBus _ _ _ _ _).bind <| pushWord _ _ _ room

/-- A micro-step does to a machine what it does to the scene, where the stack that it leaves fits the
buffer. -/
theorem microStep {s : MicroStep} (h : s.act v = some v')
    (room : v'.stack.length ≤ scratchCapacity) : Performs s.run v () v' := by
  obtain ⟨xs, c, o⟩ := v
  match s with
  | .transfer t =>
    obtain ⟨⟨ys, c'⟩, e, rfl⟩ := Option.map_eq_some_iff.1 h
    exact transfer e room
  | .cycle s =>
    obtain ⟨⟨ys, o'⟩, e, rfl⟩ := Option.map_eq_some_iff.1 h
    exact cycle e room
  | .control .halt => exact halt h
  | .control .stop => exact stop h
  | .control .undefined =>
    cases h
    exact getCpu_bind_core fun cpu hc _ => congrArg Core.opcodeAddress hc ▸ emit xs c o _
  | .control .acknowledge => exact acknowledge h room

end Beyond

end Performs

end Sm83
