import Sm83.Pattern.Flaw
import Sm83.Text.Blank

/-!
# Reading a pattern

How the text of a pattern is read: character by character, with the place of the next one at hand.
Where blanks are ignored, so are comments, which go from a number sign to the end of the line.
-/

namespace Sm83.Pattern

open Sm83.Text

/-- A text that has been read up to some place. -/
structure Reader where
  /-- What is still to be read. -/
  rest : List Char
  position : Position
  /-- Blanks and comments mean nothing. -/
  ignoresBlanks : Bool
  /-- The names of groups so far, and where they stand. -/
  names : List (String × Span)

/-- Reading something, which may come upon a flaw. -/
abbrev Read := StateT Reader (Except Flaw)

/-- Skip blanks and comments. -/
def skipBlanksFrom (inComment : Bool) (position : Position) : List Char → List Char × Position
  | [] => ([], position)
  | c :: rest =>
    if inComment then skipBlanksFrom (c ≠ '\n') (position.after c) rest
    else if isBlank c then skipBlanksFrom false (position.after c) rest
    else if c = '#' then skipBlanksFrom true (position.after c) rest
    else (c :: rest, position)

/-- The first character that is no blank, where a number sign is passed over once.  If there is none,
the first character whatever it is. -/
def firstSolid? (cs : List Char) : Option Char :=
  match cs.dropWhile isBlank with
  | '#' :: rest =>
    match rest.dropWhile isBlank with
    | [] => cs.head?
    | c :: _ => some c
  | [] => cs.head?
  | c :: _ => some c

namespace Read

/-- Fail with a flaw at some place. -/
def fail {α : Type} (kind : FlawKind) (place : Span) : Read α := throw ⟨kind, place, none⟩

/-- The next character. -/
def peek? : Read (Option Char) := return (← get).rest.head?

/-- The character behind the next one. -/
def second? : Read (Option Char) := return (← get).rest.tail.head?

/-- The character behind the next one, blanks not counted where they are ignored. -/
def secondSolid? : Read (Option Char) := do
  let r ← get
  return if r.ignoresBlanks && !r.rest.isEmpty then firstSolid? r.rest.tail else r.rest.tail.head?

/-- The place of the next character. -/
def position : Read Position := return (← get).position

/-- The empty part before the next character. -/
def point : Read Span := return .point (← position)

/-- The part that the next character takes. -/
def character : Read Span := do
  let r ← get
  match r.rest with
  | [] => return .point r.position
  | c :: _ => return ⟨r.position, r.position.after c⟩

/-- The part from some place to the next character. -/
def since (start : Position) : Read Span := return ⟨start, ← position⟩

/-- Go on by one character. -/
def advance : Read Unit := modify fun r =>
  match r.rest with
  | [] => r
  | c :: rest => { r with rest := rest, position := r.position.after c }

/-- Skip blanks where they are ignored. -/
def skipBlanks : Read Unit := modify fun r =>
  if r.ignoresBlanks then
    let (rest, position) := skipBlanksFrom false r.position r.rest
    { r with rest := rest, position := position }
  else r

/-- Go on by one character, and by blanks behind it where they are ignored. -/
def advanceToSolid : Read Unit := do
  advance
  skipBlanks

/-- Go on by some characters if they are the next ones. -/
def take? (expected : String) : Read Bool := do
  if expected.toList.isPrefixOf (← get).rest then
    expected.toList.forM fun _ => advance
    return true
  else return false

/-- Read the characters of some kind that come next, at most so many. -/
def takeUpTo (limit : Nat) (isOne : Char → Bool) : Read (List Char) :=
  match limit with
  | 0 => return []
  | limit + 1 => do
    match ← peek? with
    | some c =>
      if isOne c then
        advanceToSolid
        return c :: (← takeUpTo limit isOne)
      else return []
    | none => return []

/-- Read all characters of some kind that come next. -/
def takeAll (isOne : Char → Bool) : Read (List Char) := do
  takeUpTo (← get).rest.length isOne

end Read

end Sm83.Pattern
