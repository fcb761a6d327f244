import Sm83.Pattern.Brackets
import Sm83.Text.Letter

/-!
# The text of a pattern as an expression

A pattern is read from left to right.  Groups that are open are kept with what stands before them, and
so are choices with the branches that are complete; what is read goes into the innermost of them.
Blanks are ignored from the flag that says so on to the end of its group.
-/

namespace Sm83.Pattern

open Sm83.Text

/-- What has been read of a sequence, last part first. -/
structure Unfinished where
  start : Position
  parts : List Expression

/-- A sequence that ends at some place.  A single part is no sequence. -/
def Unfinished.finish (u : Unfinished) (stop : Position) : Expression :=
  match u.parts with
  | [] => .empty ⟨u.start, stop⟩
  | [part] => part
  | parts => .sequence ⟨u.start, stop⟩ parts.reverse

/-- What is open around the sequence that is read. -/
inductive OpenExpression
  /-- A group that starts at some place, with what stands before it. -/
  | group (before : Unfinished) (place : Span) (captures : Bool) (items : List FlagItem)
    (ignoredBlanks : Bool)
  /-- A choice that starts at some place, with its complete branches, last first. -/
  | choice (start : Position) (branches : List Expression)

namespace Read

/-! ## Flags -/

/-- The flag of a letter. -/
def flag? : Char → Option Flag
  | 'i' => some .ignoreCase
  | 'm' => some .multiLine
  | 's' => some .dotMatchesLineEnd
  | 'U' => some .swapGreed
  | 'u' => some .unicode
  | 'R' => some .crlf
  | 'x' => some .ignoreBlanks
  | _ => none

/-- Add a flag to those before it, last first, which do not have it yet. -/
def addFlag (items : List FlagItem) (item : FlagItem) : Read (List FlagItem) :=
  match items.find? (·.flag = item.flag) with
  | none => return item :: items
  | some first =>
    let kind := if item.flag.isNone then FlawKind.repeatedNegation else .repeatedFlag
    throw ⟨kind, item.place, some first.place⟩

/-- Read flags up to the colon or parenthesis behind them, which is returned with them. -/
def flagsFrom : (limit : Nat) → List FlagItem → Read (List FlagItem × Char)
  | 0, _ => do fail .openFlags (← point)
  | limit + 1, items => do
    match ← peek? with
    | none => fail .openFlags (← point)
    | some c =>
      if c = ':' || c = ')' then
        match items with
        | ⟨place, none⟩ :: _ => fail .danglingNegation place
        | _ => return (items.reverse, c)
      else
        let place ← character
        let flag ← if c = '-' then pure none else
          match flag? c with
          | none => fail .unknownFlag place
          | some flag => pure (some flag)
        let items ← addFlag items ⟨place, flag⟩
        advance
        flagsFrom limit items

/-- Read flags. -/
def flags : Read (List FlagItem × Char) := do flagsFrom ((← get).rest.length + 1) []

/-! ## Groups -/

/-- Whether a character can be in the name of a group. -/
def isNameCharacter (isFirst : Bool) (c : Char) : Bool :=
  c = '_' || isLetter c || (!isFirst && (c = '.' || c = '[' || c = ']' || isNumber c))

/-- Read the characters of a name up to the sign that ends it. -/
def nameFrom (before : List Char) : (limit : Nat) → Read (List Char)
  | 0 => do fail .openName (← point)
  | limit + 1 => do
    match ← peek? with
    | none => fail .openName (← point)
    | some '>' => return before.reverse
    | some c =>
      if isNameCharacter before.isEmpty c then
        advance
        nameFrom (c :: before) limit
      else fail .nameCharacter (← character)

/-- Read the name of a group, which no other group has. -/
def name : Read Unit := do
  let start ← position
  let cs ← nameFrom [] ((← get).rest.length + 1)
  let place ← since start
  advance
  if cs.isEmpty then fail .emptyName (.point start)
  let name := String.ofList cs
  let names := (← get).names
  match names.find? (·.1 = name) with
  | some (_, first) => throw ⟨.repeatedName, place, some first⟩
  | none => modify fun r => { r with names := (name, place) :: names }

/-- Open a group, and ignore blanks in it if its flags say so. -/
def openGroup (around : List OpenExpression) (before : Unfinished) (place : Span) (captures : Bool)
    (items : List FlagItem) : Read (List OpenExpression × Unfinished) := do
  let ignored := (← get).ignoresBlanks
  modify fun r =>
    { r with ignoresBlanks := (FlagItem.state? .ignoreBlanks items).getD ignored }
  return (.group before place captures items ignored :: around, ⟨← position, []⟩)

/-- Read what stands behind an opening parenthesis: the beginning of a group, or flags for what
follows. -/
def parenthesis (around : List OpenExpression) (before : Unfinished) :
    Read (List OpenExpression × Unfinished) := do
  let place ← character
  advance
  skipBlanks
  let inner ← point
  if (← take? "?=") || (← take? "?!") || (← take? "?<=") || (← take? "?<!") then
    fail .lookAround (← since place.start)
  if (← take? "?P<") || (← take? "?<") then
    name
    openGroup around before place true []
  else if ← take? "?" then
    if (← peek?).isNone then fail .openGroup place
    let (items, stop) ← flags
    advance
    if stop = ':' then openGroup around before place false items
    else
      if items.isEmpty then fail .nothingToRepeat inner
      modify fun r =>
        { r with ignoresBlanks := (FlagItem.state? .ignoreBlanks items).getD r.ignoresBlanks }
      return (around, { before with parts := .flags (← since place.start) items :: before.parts })
  else openGroup around before place true []

/-- Close a choice, if one is open, with its last branch, at some place. -/
def closeChoice (stop : Position) (last : Unfinished) :
    List OpenExpression → Expression × List OpenExpression
  | .choice start branches :: around =>
    (.choice ⟨start, stop⟩ (last.finish stop :: branches).reverse, around)
  | around => (last.finish stop, around)

/-- Close a group at its closing parenthesis. -/
def closeGroup (around : List OpenExpression) (last : Unfinished) :
    Read (List OpenExpression × Unfinished) := do
  let (sub, around) := closeChoice (← position) last around
  match around with
  | .group before place captures items ignored :: around =>
    modify fun r => { r with ignoresBlanks := ignored }
    advance
    let group := Expression.group (← since place.start) captures items sub
    return (around, { before with parts := group :: before.parts })
  | _ => fail .noGroup (← character)

/-- Begin another branch of a choice. -/
def branch (around : List OpenExpression) (last : Unfinished) :
    Read (List OpenExpression × Unfinished) := do
  let complete := last.finish (← position)
  advance
  let next : Unfinished := ⟨← position, []⟩
  match around with
  | .choice start branches :: around =>
    return (.choice start (complete :: branches) :: around, next)
  | around => return (.choice last.start [complete] :: around, next)

/-! ## Repetitions -/

/-- The part that is repeated, and those before it. -/
def repeated (u : Unfinished) : Read (Expression × List Expression) := do
  match u.parts with
  | [] | .empty _ :: _ | .flags _ _ :: _ => fail .nothingToRepeat (← point)
  | part :: before => return (part, before)

/-- Put a repetition in the place of the part that is repeated. -/
def putRepetition (u : Unfinished) (part : Expression) (before : List Expression) (least : Nat)
    (most : Option Nat) : Read Unfinished := do
  let place ← since part.place.start
  return { u with parts := .repetition place least most part :: before }

/-- Read a sign for repetitions, with a mark behind it that does not change what is found. -/
def signRepetition (u : Unfinished) (least : Nat) (most : Option Nat) : Read Unfinished := do
  let (part, before) ← repeated u
  advance
  if (← peek?) = some '?' then advance
  putRepetition u part before least most

/-- Skip blanks that stand around a number. -/
def skipAroundNumber : Read Unit := do
  let blanks := (← get).rest.takeWhile isBlank
  blanks.forM fun _ => advance

/-- Read a number.  What is wrong with it may come to matter only later. -/
def number : Read (Except Flaw Nat) := do
  skipAroundNumber
  let start ← position
  let digits ← takeAll Char.isDigit
  let place ← since start
  discard (takeAll isBlank)
  let value := digits.foldl (fun value c => value * 10 + (c.toNat - '0'.toNat)) 0
  if digits.isEmpty then return .error ⟨.noCount, place, none⟩
  else if value < 0x100000000 then return .ok value
  else return .error ⟨.largeNumber, place, none⟩

/-- Read the counts behind an opening brace at `start`, up to the brace that closes them. -/
def counts (start : Position) : Read (Nat × Option Nat) := do
  if (← peek?).isNone then fail .openCount (← since start)
  let least ← number
  match ← peek? with
  | none => fail .openCount (← since start)
  | some ',' =>
    advanceToSolid
    match ← peek? with
    | none => fail .openCount (← since start)
    | some '\x7d' => return (← least, none)
    | some _ =>
      let least ← least
      let most ← number
      return (least, some (← most))
  | some _ =>
    let least ← least
    return (least, some least)

/-- Read counted repetitions. -/
def countedRepetition (u : Unfinished) : Read Unfinished := do
  let start ← position
  let (part, before) ← repeated u
  advanceToSolid
  let (least, most) ← counts start
  if (← peek?) ≠ some '\x7d' then fail .openCount (← since start)
  advanceToSolid
  if (← peek?) = some '?' then advance
  if most.any (· < least) then fail .emptyCount (← since start)
  putRepetition u part before least most

/-! ## Whole patterns -/

/-- Read an element with a meaning of its own, or a character that stands for itself. -/
def primitive (next : Char) : Read Primitive := do
  if next = '\\' then escape
  else
    let place ← character
    advance
    match next with
    | '.' => return .dot place
    | '^' => return .anchor place .lineStart
    | '$' => return .anchor place .lineEnd
    | c => return .literal ⟨place, c, false⟩

/-- Finish the outermost sequence at the end of the text. -/
def finish (around : List OpenExpression) (last : Unfinished) : Read Expression := do
  let (expression, around) := closeChoice (← position) last around
  match around with
  | [] => return expression
  | .group _ place _ _ _ :: _ => fail .openGroup place
  | .choice _ _ :: _ => return expression

/-- Read the rest of a pattern, where `around` is open around the sequence that is read. -/
def patternFrom : (limit : Nat) → List OpenExpression → Unfinished → Read Expression
  | 0, around, u => finish around u
  | limit + 1, around, u => do
    skipBlanks
    let push (part : Expression) : Unfinished := { u with parts := part :: u.parts }
    match ← peek? with
    | none => finish around u
    | some '(' =>
      let (around, u) ← parenthesis around u
      patternFrom limit around u
    | some ')' =>
      let (around, u) ← closeGroup around u
      patternFrom limit around u
    | some '|' =>
      let (around, u) ← branch around u
      patternFrom limit around u
    | some '[' => patternFrom limit around (push (← brackets))
    | some '?' => patternFrom limit around (← signRepetition u 0 (some 1))
    | some '*' => patternFrom limit around (← signRepetition u 0 none)
    | some '+' => patternFrom limit around (← signRepetition u 1 none)
    | some '\x7b' => patternFrom limit around (← countedRepetition u)
    | some c => patternFrom limit around (push (.primitive (← primitive c)))

end Read

/-- Read the text of a pattern. -/
def Expression.ofString (s : String) : Except Flaw Expression :=
  let start : Reader := ⟨s.toList, .start, false, []⟩
  (Read.patternFrom (s.toList.length + 1) [] ⟨.start, []⟩).run' start

end Sm83.Pattern
