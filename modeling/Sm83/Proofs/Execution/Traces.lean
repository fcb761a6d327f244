import Sm83.Proofs.Execution.Rows
import Sm83.Proofs.Run.Lockstep

/-!
# What an instruction leaves behind

An instruction leaves two traces beside its results, and neither has an effect on it.  A bus that
keeps a record has its accesses, and events name the address of the opcode.  So two instructions can be
compared that were fetched from different places and took the same course otherwise.

* `Ends.recorded` — a record only grows, and what was accessed is on it.
* `Scene.retold`, `Ends.retold` — whatever has been noted, and whatever address is going to be, the
  instruction ends in the same way.
* `Lockstep.ends` — an instruction that does not access an address does not notice what is there.
-/

namespace Sm83

open Bus (Access Recorded)

/-- Every instruction comes to its end. -/
theorem Instruction.ends {β : Type} [Bus β] (i : Instruction) {c : Core} (o : Outside β)
    (clear : c.haltBug = false) : ∃ w, Ends i.microprogram.position ⟨[], c, o⟩ w := by
  cases i with
  | stop => exact ⟨_, .move (congrArg (Option.map _) (Control.stop_act_eq [] c o)) (.stop rfl)⟩
  | halt | disableInterrupts | enableInterrupts => exact ⟨_, .last rfl⟩
  | jumpRelative _ | jump _ | jumpHl | call _ | ret | retIf _ | reti | restart _ | push _ | pop _ =>
    exact ⟨_, ends_of_isControl rfl o clear⟩
  | _ => exact ⟨_, ends_of_isData rfl o clear⟩

/-! ## What moves leave on record -/

section Recorded

variable {β : Type} [Bus β] {p : Position} {v w : Scene (Recorded β)}

/-- A demand that is met is on record. -/
theorem Demand.mem_latest_meet {d : Option Demand} {d' : Demand} (h : d' ∈ d) (b : Recorded β) :
    ∃ x ∈ (meet d b).latest, x.address = d'.address := by
  match d, h with
  | some (.read a), rfl | some (.write a value), rfl => exact ⟨_, List.mem_cons_self, rfl⟩

theorem Demand.latest_suffix_meet (d : Option Demand) (b : Recorded β) :
    b.latest <:+ (meet d b).latest := by
  rw [meet_recorded d b.latest b.inner]
  exact List.suffix_append _ _

/-- The steps in no time that reach beyond the processor add to the record. -/
theorem Control.act_recorded {c : Control} (acts : c.act v = some w) :
    v.out.bus.latest <:+ w.out.bus.latest := by
  obtain ⟨xs, core, o⟩ := v
  match c with
  | .halt =>
    have polled : o.bus.latest <:+ (Bus.poll o.bus).2.latest := List.suffix_append [_, _] _
    cases acts
    split
    · exact polled
    · exact polled
  | .stop =>
    rw [Control.stop_act_eq] at acts
    cases acts
    rw [Outside.stop]
    split <;> exact List.suffix_refl _
  | .undefined =>
    cases acts
    exact List.suffix_refl _
  | .acknowledge =>
    simp only [Control.act] at acts
    split at acts
    · cases acts
    · cases acts
      exact List.suffix_append [_, _, _] _

/-- A move adds to the record, and its access to the bus is on it. -/
theorem Position.act_recorded {r : Option Position} (acts : p.act v = some (r, w)) :
    v.out.bus.latest <:+ w.out.bus.latest
      ∧ ∀ d ∈ p.demand? v, ∃ x ∈ w.out.bus.latest, x.address = d.address := by
  have silent : ∀ d ∈ (none : Option Demand), ∃ x ∈ w.out.bus.latest, x.address = d.address := nofun
  cases moved_of_act acts with
  | @step s _ _ _ first =>
    match s with
    | .transfer t =>
      obtain ⟨⟨ys, c⟩, -, rfl⟩ := Option.map_eq_some_iff.1 first
      exact ⟨List.suffix_refl _, silent⟩
    | .cycle c =>
      obtain ⟨⟨ys, o⟩, inside, rfl⟩ := Option.map_eq_some_iff.1 first
      obtain ⟨met, -⟩ := MachineCycle.act_meets inside
      show _ <:+ o.bus.latest ∧ ∀ d ∈ _, ∃ x ∈ o.bus.latest, _
      rw [met]
      exact ⟨Demand.latest_suffix_meet _ _, fun d demanded => Demand.mem_latest_meet demanded _⟩
    | .control c => exact ⟨Control.act_recorded first, silent⟩
  -- where no step is carried out, the outside is as it was
  | retires | taken _ | dropped _ _ | decodes _ | selects _ => exact ⟨List.suffix_refl _, silent⟩

theorem Ends.recorded (h : Ends p v w) : v.out.bus.latest <:+ w.out.bus.latest := by
  induction h with
  | stop acts => exact (Position.act_recorded acts).1
  | move acts _ ih => exact (Position.act_recorded acts).1.trans ih

end Recorded

/-! ## What is noted makes no difference -/

section Notes

variable {β : Type} [Bus β] {p : Position} {v w : Scene β}

/-- The same scene with other notes: another address of the opcode, and other events. -/
def Scene.retold (v : Scene β) (a : UInt16) (events : List Event) : Scene β :=
  ⟨v.stack, v.core.addressed a, { v.out with events := events }⟩

theorem Outside.load_retold (x : UInt16) (o : Outside β) (events : List Event) :
    ∃ events', Outside.load x { o with events := events }
      = ((o.load x).1, { (o.load x).2 with events := events' }) := by
  simp only [load, speedAt?]
  split <;> exact ⟨_, rfl⟩

theorem Outside.store_retold (x : UInt16) (value : UInt8) (o : Outside β) (events : List Event) :
    ∃ events', Outside.store x value { o with events := events }
      = { o.store x value with events := events' } := by
  simp only [store, speedAt?]
  split <;> exact ⟨_, rfl⟩

theorem MachineCycle.act_retold {c : MachineCycle} {xs ys : List UInt8} {o o' : Outside β}
    (acts : c.act xs o = some (ys, o')) (events : List Event) :
    ∃ events', c.act xs { o with events := events } = some (ys, { o' with events := events' }) := by
  match c, xs, acts with
  | .read, hi :: lo :: xs, rfl =>
    obtain ⟨events', loaded⟩ := o.load_retold (Word.ofBytes hi lo) events
    refine ⟨events', ?_⟩
    rw [act, loaded]
    rfl
  | .write, hi :: lo :: value :: xs, rfl =>
    obtain ⟨events', stored⟩ := o.store_retold (Word.ofBytes hi lo) value events
    refine ⟨events', ?_⟩
    rw [act, stored]
  | .delay, xs, rfl => exact ⟨events, rfl⟩

/-- A step does the same whatever was noted. -/
theorem MicroStep.act_retold {s : MicroStep} (acts : s.act v = some w) (a : UInt16)
    (events : List Event) : ∃ events', s.act (v.retold a events) = some (w.retold a events') := by
  obtain ⟨xs, c, o⟩ := v
  match s with
  | .transfer t =>
    obtain ⟨⟨ys, d⟩, inside, rfl⟩ := Option.map_eq_some_iff.1 acts
    refine ⟨events, ?_⟩
    rw [Scene.retold, act, Transfer.act_addressed, inside]
    rfl
  | .cycle s =>
    obtain ⟨⟨ys, o'⟩, inside, rfl⟩ := Option.map_eq_some_iff.1 acts
    obtain ⟨events', inside'⟩ := MachineCycle.act_retold inside events
    refine ⟨events', ?_⟩
    rw [Scene.retold, act, inside']
    rfl
  | .control .halt =>
    by_cases halts : (c.ime || (Bus.poll o.bus).1.isEmpty) = true
    · simp only [act, Control.act, if_pos halts] at acts
      cases acts
      exact ⟨_, congrArg some (if_pos halts)⟩
    · simp only [act, Control.act, if_neg halts] at acts
      cases acts
      exact ⟨_, congrArg some (if_neg halts)⟩
  | .control .stop =>
    simp only [act, Control.stop_act_eq, Option.some.injEq, Outside.stop, Scene.retold] at acts ⊢
    subst acts
    split <;> exact ⟨_, rfl⟩
  | .control .undefined =>
    cases acts
    exact ⟨_, rfl⟩
  | .control .acknowledge =>
    simp only [act, Control.act] at acts ⊢
    split at acts
    · cases acts
    next line present =>
      cases acts
      simp only [Scene.retold, present]
      exact ⟨_, rfl⟩

theorem Position.act_retold {r : Option Position} (acts : p.act v = some (r, w)) (a : UInt16)
    (events : List Event) : ∃ events', p.act (v.retold a events) = some (r, w.retold a events') := by
  obtain ⟨steps, ending⟩ := p
  match steps, ending with
  | s :: rest, ending =>
    obtain ⟨u, first, e⟩ := Option.map_eq_some_iff.1 acts
    cases e
    obtain ⟨events', first'⟩ := MicroStep.act_retold first a events
    exact ⟨events', congrArg (Option.map _) first'⟩
  | [], .exit .retire =>
    cases acts
    exact ⟨events, rfl⟩
  | [], .exit (.branch condition taken leftover) =>
    obtain ⟨xs, c, o⟩ := v
    simp only [Position.act] at acts
    split at acts
    next holds =>
      cases acts
      exact ⟨events, if_pos holds⟩
    next fails =>
      split at acts
      next enough =>
        cases acts
        exact ⟨events, (if_neg fails).trans (if_pos enough)⟩
      next => cases acts
  | [], .decode | [], .exit .prefixed =>
    obtain ⟨_ | ⟨opcode, xs⟩, c, o⟩ := v
    · cases acts
    · cases acts
      exact ⟨_, rfl⟩

theorem Ends.retold (h : Ends p v w) (a : UInt16) (events : List Event) :
    ∃ events', Ends p (v.retold a events) (w.retold a events') := by
  induction h generalizing events with
  | stop acts =>
    obtain ⟨events', acts'⟩ := Position.act_retold acts a events
    exact ⟨events', .stop acts'⟩
  | move acts _ ih =>
    obtain ⟨between, acts'⟩ := Position.act_retold acts a events
    obtain ⟨events', ends⟩ := ih between
    exact ⟨events', .move acts' ends⟩

end Notes

/-! ## Buses that differ at one address -/

section Elsewhere

variable {β γ : Type} [Bus β] [Bus γ] {a : UInt16} {B : β → γ → Prop}

/-- The same speed switch, which does not lie at `a`. -/
def SwitchElsewhere (a : UInt16) : SwitchRelation := fun s s' =>
  s' = s ∧ (s.isSome = true → a ≠ SpeedSwitch.address)

/-- A move after which nothing on record is at `a` has not accessed `a`. -/
theorem Position.access_ne_of_recorded {p : Position} {r : Option Position}
    {v w : Scene (Recorded β)} (acts : p.act v = some (r, w))
    (off : v.out.speed.isSome = true → a ≠ SpeedSwitch.address)
    (misses : ∀ x ∈ w.out.bus.latest, x.address ≠ a) : ∀ d ∈ p.access? v, d.address ≠ a := by
  rintro d accessed rfl
  have demanded : d ∈ p.demand? v := by
    have passes : Demand.unlessSwitch v.out.speed d.address d = some d := by
      have nowhere := Outside.speedAt?_eq_none off
      rw [Outside.speedAt?] at nowhere
      rw [Demand.unlessSwitch, nowhere]
    rw [Position.demand?_eq, show p.access? v = some d from accessed]
    exact passes
  obtain ⟨x, member, there⟩ := (Position.act_recorded acts).2 d demanded
  exact misses x member there

/-- The moves to the end of an instruction that keeps away from `a`, on two buses that differ there
at most. -/
theorem Lockstep.ends {same : Prop} {base base' : List Access} {p : Position}
    {v w : Scene (Recorded β)} {v' : Scene (Recorded γ)}
    (lock : Lockstep (· ≠ a) (SwitchElsewhere a) B) (h : Ends p v w)
    (misses : ∀ x ∈ w.out.bus.latest, x.address ≠ a)
    (abreast : Abreast same (SwitchElsewhere a) (Bus.Since base base' B) (some p) v v') :
    ∃ w', Ends p v' w'
      ∧ Abreast same (SwitchElsewhere a) (Bus.Since base base' B) none w w' := by
  have lock := lock.since base base'
  induction h generalizing v' with
  | stop acts =>
    have within := Position.access_ne_of_recorded acts abreast.out.speed.2 misses
    obtain ⟨w', acts', after⟩ := lock.act abreast within acts
    exact ⟨w', .stop acts', after⟩
  | move acts ends ih =>
    -- what is on record now is on record in the end
    have within := Position.access_ne_of_recorded acts abreast.out.speed.2
      fun x member => misses x (ends.recorded.subset member)
    obtain ⟨u', acts', after⟩ := lock.act abreast within acts
    obtain ⟨w', ends', last⟩ := ih misses after
    exact ⟨w', .move acts' ends', last⟩

end Elsewhere

end Sm83
