/-!
# Places in a text

Where in a text a character stands, for people who have to find it: lines and columns, counted from
one.
-/

namespace Sm83.Text

/-- A place between two characters of a text. -/
structure Position where
  line : Nat
  column : Nat
  deriving DecidableEq, Repr

namespace Position

/-- The place before the first character. -/
def start : Position := ⟨1, 1⟩

/-- The place behind a character that stands at some place. -/
def after (p : Position) (c : Char) : Position :=
  if c = '\n' then ⟨p.line + 1, 1⟩ else ⟨p.line, p.column + 1⟩

/-- Whether a place comes before another. -/
def isBefore (p q : Position) : Bool :=
  p.line < q.line || (p.line = q.line && p.column < q.column)

end Position

/-- A part of a text, from one place to another. -/
structure Span where
  start : Position
  stop : Position
  deriving DecidableEq, Repr

namespace Span

/-- The part with nothing in it at some place. -/
def point (p : Position) : Span := ⟨p, p⟩

/-- Whether a part lies in one line. -/
def isInLine (s : Span) : Bool := s.start.line = s.stop.line

/-- Whether a part comes before another: it starts before the other does, or there too and ends before
it. -/
def isBefore (s t : Span) : Bool :=
  s.start.isBefore t.start || (s.start = t.start && s.stop.isBefore t.stop)

end Span

end Sm83.Text
