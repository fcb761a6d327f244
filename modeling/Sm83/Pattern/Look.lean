/-!
# Looks at a place

What a pattern can ask of a place between characters: whether the text, a line or a word starts or ends
there.  All that counts is the character before the place and the one behind it.
-/

namespace Sm83.Pattern

/-- A place between characters, with the character on either side unless the text ends there. -/
structure Gap where
  before : Option Char
  behind : Option Char
  deriving DecidableEq, Repr

namespace Gap

/-- The places in a text, where some character stands before it. -/
def listFrom (before : Option Char) : List Char → List Gap
  | [] => [⟨before, none⟩]
  | c :: rest => ⟨before, some c⟩ :: listFrom (some c) rest

/-- The places in a text. -/
def ofString (s : String) : List Gap := listFrom none s.toList

end Gap

/-- How words lie around a place. -/
inductive WordEdge
  | boundary | noBoundary | start | stop | startHalf | stopHalf
  deriving DecidableEq, Repr

/-- Whether a character is part of words of simple letters. -/
def isWordCharacter (c : Char) : Bool := c.isAlphanum || c = '_'

/-- Whether words lie around a place in some way. -/
def WordEdge.holds (edge : WordEdge) (g : Gap) : Bool :=
  let before := g.before.any isWordCharacter
  let behind := g.behind.any isWordCharacter
  match edge with
  | .boundary => before != behind
  | .noBoundary => before == behind
  | .start => !before && behind
  | .stop => before && !behind
  | .startHalf => !before
  | .stopHalf => !behind

/-- What is asked of a place. -/
inductive Look
  | textStart
  | textEnd
  /-- A line starts; if `returns` is set, lines may also end in a carriage return, with or without a
  line feed. -/
  | lineStart (returns : Bool)
  | lineEnd (returns : Bool)
  /-- Words lie around the place in some way.  Their letters are all letters there are, unless they are
  simple. -/
  | word (simple : Bool) (edge : WordEdge)
  deriving DecidableEq, Repr

/-- Whether a place is as it is asked.  Of letters only the simple ones are known. -/
def Look.holds (asked : Look) (g : Gap) : Bool :=
  match asked with
  | .textStart => g.before.isNone
  | .textEnd => g.behind.isNone
  | .lineStart false => g.before.all (· = '\n')
  | .lineEnd false => g.behind.all (· = '\n')
  | .lineStart true =>
    g.before.all fun c => c = '\n' || (c = '\r' && g.behind ≠ some '\n')
  | .lineEnd true =>
    g.behind.all fun c => c = '\r' || (c = '\n' && g.before ≠ some '\r')
  | .word _ edge => edge.holds g

end Sm83.Pattern
