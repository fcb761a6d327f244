import Sm83.Pattern.Escape

/-!
# Brackets

Sets of characters in brackets: characters and ranges of them, classes, further brackets, and
operations on what stands to their left and to their right.  Operations are taken from the left.
-/

namespace Sm83.Pattern

open Sm83.Text

/-- The parts of a set that stand side by side, last first, and the place that they take. -/
structure Side where
  place : Span
  parts : List SetExpression

namespace Side

/-- No parts, before the next character. -/
def empty (position : Position) : Side := ⟨.point position, []⟩

/-- Add a part. -/
def push (s : Side) (part : SetExpression) : Side :=
  let start := if s.parts.isEmpty then part.place.start else s.place.start
  ⟨⟨start, part.place.stop⟩, part :: s.parts⟩

/-- The set of all parts. -/
def set (s : Side) : SetExpression :=
  match s.parts with
  | [] => .empty s.place
  | [part] => part
  | parts => .union s.place parts.reverse

end Side

/-- What is open around the parts that are read. -/
inductive OpenSet
  /-- Brackets, inside of other parts. -/
  | brackets (outer : Side) (place : Span) (negated : Bool)
  /-- An operation with its left side. -/
  | operation (op : SetOperation) (left : SetExpression)

/-- Close an operation, if one is open, with its right side. -/
def closeOperation (right : SetExpression) : List OpenSet → SetExpression × List OpenSet
  | .operation op left :: around =>
    (.operation ⟨left.place.start, right.place.stop⟩ op left right, around)
  | around => (right, around)

namespace Read

/-- Fail because the innermost brackets are not closed. -/
def failOpen {α : Type} : List OpenSet → Read α
  | [] => do fail .openBrackets (← point)
  | .brackets _ place _ :: _ => fail .openBrackets place
  | .operation _ _ :: around => failOpen around

/-! ## Single parts -/

/-- Read a character or an escape sequence. -/
def setItem (next : Char) : Read Primitive := do
  if next = '\\' then escape
  else
    let place ← character
    advance
    return .literal ⟨place, next, false⟩

/-- A part of a set. -/
def setPart : Primitive → Read SetExpression
  | .literal l => return .literal l
  | .shorthand place negated kind => return .shorthand place negated kind
  | .property place name => return .property place name
  | .dot place | .anchor place _ => fail .escapeInBrackets place

/-- An end of a range. -/
def rangeEnd : Primitive → Read Literal
  | .literal l => return l
  | p => fail .rangeEnd p.place

/-- Read a part of a set or a range. -/
def setRange (around : List OpenSet) (next : Char) : Read SetExpression := do
  let first ← setItem next
  skipBlanks
  match ← peek? with
  | none => failOpen around
  | some c =>
    let following ← secondSolid?
    if c ≠ '-' || following = some ']' || following = some '-' then setPart first
    else
      advanceToSolid
      match ← peek? with
      | none => failOpen around
      | some next =>
        let last ← setItem next
        let place : Span := ⟨first.place.start, last.place.stop⟩
        let first ← rangeEnd first
        let last ← rangeEnd last
        if last.char < first.char then fail .emptyRange place
        return .range place first last

/-- Read a named class, if there is one. -/
def namedClass : Read (Option SetExpression) := do
  let start ← position
  if !(← take? "[:") then return none
  let negated ← take? "^"
  let name := (← get).rest.takeWhile (· ≠ ':')
  name.forM fun _ => advance
  if !(← take? ":]") then return none
  let place ← since start
  return (NamedClass.ofName? (String.ofList name)).map (.named place negated ·)

/-- Read a named class or, if there is none, nothing at all. -/
def namedClass? : Read (Option SetExpression) := do
  let before ← get
  match ← namedClass with
  | some part => return some part
  | none =>
    set before
    return none

/-! ## Whole sets -/

/-- Read hyphens that stand for themselves at the beginning of a set. -/
def leadingHyphens (start : Position) (side : Side) : (limit : Nat) → Read Side
  | 0 => return side
  | limit + 1 => do
    if (← peek?) = some '-' then
      let side := side.push (.literal ⟨← character, '-', false⟩)
      advanceToSolid
      if (← peek?).isNone then fail .openBrackets (.point start)
      leadingHyphens start side limit
    else return side

/-- Open brackets: read them, a sign that negates them, and the characters that stand for themselves
only behind it. -/
def openBrackets (outer : Side) : Read (OpenSet × Side) := do
  let start ← position
  advanceToSolid
  if (← peek?).isNone then fail .openBrackets (← since start)
  let negated := (← peek?) = some '^'
  if negated then
    advanceToSolid
    if (← peek?).isNone then fail .openBrackets (← since start)
  let side ← leadingHyphens start (.empty (← position)) (← get).rest.length
  if side.parts.isEmpty && (← peek?) = some ']' then
    let side := side.push (.literal ⟨← character, ']', false⟩)
    advanceToSolid
    if (← peek?).isNone then fail .openBrackets (← since start)
    return (.brackets outer (← since start) negated, side)
  else return (.brackets outer (← since start) negated, side)

/-- The operation whose sign starts with a character that stands twice. -/
def operation? : Char → Option SetOperation
  | '&' => some .intersection
  | '-' => some .difference
  | '~' => some .symmetricDifference
  | _ => none

/-- Read a set in brackets, where `around` is open around the parts that have been read. -/
def bracketsFrom : (limit : Nat) → List OpenSet → Side → Read Expression
  | 0, around, _ => failOpen around
  | limit + 1, around, side => do
    skipBlanks
    match ← peek? with
    | none => failOpen around
    | some '[' =>
      match ← if around.isEmpty then pure none else namedClass? with
      | some part => bracketsFrom limit around (side.push part)
      | none =>
        let (opened, side) ← openBrackets side
        bracketsFrom limit (opened :: around) side
    | some ']' =>
      let (set, around) := closeOperation side.set around
      advance
      match around with
      | .brackets outer place negated :: around =>
        let place ← since place.start
        if around.isEmpty then return .brackets place negated set
        else bracketsFrom limit around (outer.push (.brackets place negated set))
      | around => failOpen around
    | some c =>
      match operation? c with
      | some op =>
        if (← second?) = some c then
          let (left, around) := closeOperation side.set around
          advance
          advance
          bracketsFrom limit (.operation op left :: around) (.empty (← position))
        else bracketsFrom limit around (side.push (← setRange around c))
      | none => bracketsFrom limit around (side.push (← setRange around c))

/-- Read a set in brackets. -/
def brackets : Read Expression := do
  bracketsFrom ((← get).rest.length + 1) [] (.empty (← position))

end Read

end Sm83.Pattern
