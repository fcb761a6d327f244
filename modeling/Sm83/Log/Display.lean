import Sm83.Log.Filter
import Sm83.Text.Printable

/-!
# Logs on display

A log shows its records one below the other.  Where a message has several lines, all but the first are
set in, so that each line at the margin is the first of a record.  Nothing is shown that would control
a terminal.
-/

namespace Sm83.Log

/-- How far the lines of a message are set in. -/
def margin : List Char := List.replicate 4 ' '

/-- The lines of a message, all but the first set in. -/
def setIn (cs : List Char) : List Char := cs.flatMap fun c => if c = '\n' then c :: margin else [c]

/-- A record in a log.  The end of its line is part of what may be hidden. -/
def Record.display (r : Record) : String :=
  Text.Printable.ofString (String.ofList (setIn r.line.toList ++ ['\n']))

/-- What a log with some filter shows of some records. -/
def display (f : Filter) (records : List Record) : String :=
  String.join ((records.filter f.passes).map Record.display)

end Sm83.Log
