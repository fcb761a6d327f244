import Sm83.Text.Place

/-!
# Marked texts

A text is shown with some of its parts marked: below each line that has such a part stands a line with
carets under it.  The lines of a text with more than one are numbered; parts that go over several lines
cannot be marked then, and are named instead.
-/

namespace Sm83.Text.Marked

/-- The lines of a text, without the characters that end them.  `current` has the characters of the
line so far, last first. -/
def linesFrom (current : List Char) : List Char → List (List Char)
  | [] => if current.isEmpty then [] else [current.reverse]
  | '\n' :: rest =>
    let line := match current with
      | '\r' :: earlier => earlier
      | current => current
    line.reverse :: linesFrom [] rest
  | c :: rest => linesFrom (c :: current) rest

/-- How many lines a text has for someone who counts places in it: behind the end of the last line
there is one more. -/
def lineCount (cs : List Char) : Nat :=
  (linesFrom [] cs).length + if cs.getLast? = some '\n' then 1 else 0

/-- The width of line numbers, which only texts with several lines have. -/
def numberWidth (cs : List Char) : Nat :=
  if lineCount cs ≤ 1 then 0 else (toString (lineCount cs)).length

/-- A number of blanks. -/
def blanks (n : Nat) : List Char := List.replicate n ' '

/-- What stands before a line. -/
def numbered (width number : Nat) : List Char :=
  if width = 0 then blanks 4
  else
    let digits := (toString number).toList
    blanks (width - digits.length) ++ digits ++ [':', ' ']

/-- How far the lines are set in by what stands before them. -/
def indent (width : Nat) : Nat := if width = 0 then 4 else width + 2

/-- Carets below some parts of one line, where `column` columns are filled. -/
def carets (column : Nat) : List Span → List Char
  | [] => []
  | s :: rest =>
    let gap := (s.start.column - 1) - column
    let width := max 1 (s.stop.column - s.start.column)
    blanks gap ++ List.replicate width '^' ++ carets (column + gap + width) rest

/-- Parts in order. -/
def sorted (spans : List Span) : List Span := spans.mergeSort fun s t => !t.isBefore s

/-- The line of carets below a line, if it has marked parts. -/
def caretLine (width number : Nat) (spans : List Span) : List Char :=
  match sorted (spans.filter fun s => s.isInLine && s.start.line = number) with
  | [] => []
  | marked => blanks (indent width) ++ carets 0 marked ++ ['\n']

/-- Lines with carets below them, from one number on. -/
def markedLines (width number : Nat) (spans : List Span) : List (List Char) → List Char
  | [] => []
  | line :: rest =>
    numbered width number ++ line ++ ['\n'] ++ caretLine width number spans
      ++ markedLines width (number + 1) spans rest

/-- A text with some of its parts marked. -/
def text (s : String) (spans : List Span) : String :=
  String.ofList (markedLines (numberWidth s.toList) 1 spans (linesFrom [] s.toList))

/-- The name of a part that goes over several lines. -/
def named (s : Span) : String :=
  "on line " ++ toString s.start.line ++ " (column " ++ toString s.start.column
    ++ ") through line " ++ toString s.stop.line ++ " (column " ++ toString (s.stop.column - 1)
    ++ ")\n"

/-- The names of the parts that go over several lines. -/
def namesOfLong (spans : List Span) : String :=
  String.join ((sorted (spans.filter fun s => !s.isInLine)).map named)

end Sm83.Text.Marked
