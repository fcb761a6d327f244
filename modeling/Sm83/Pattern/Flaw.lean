import Sm83.Text.Marked

/-!
# Flaws of patterns

What can be wrong with the text of a pattern, and where.  A flaw is reported with the text, in which
the place is marked; where something stands twice, the first place is marked too.
-/

namespace Sm83.Pattern

open Sm83.Text

/-- What is wrong. -/
inductive FlawKind
  /-- This escape sequence is no character, and cannot be in brackets. -/
  | escapeInBrackets
  /-- The last character of a range comes before the first. -/
  | emptyRange
  /-- A range ends in something that is no character. -/
  | rangeEnd
  /-- Brackets are open at the end. -/
  | openBrackets
  /-- A number has no digits. -/
  | noDigits
  /-- A number is too large. -/
  | largeNumber
  /-- A hexadecimal number has no digits. -/
  | noHexDigits
  /-- A hexadecimal number is the code of no character. -/
  | noCharacter
  /-- This is no hexadecimal digit. -/
  | noHexDigit
  /-- The text ends in an escape sequence. -/
  | openEscape
  /-- There is no such escape sequence. -/
  | unknownEscape
  /-- No flag follows the negation. -/
  | danglingNegation
  /-- A flag stands here twice. -/
  | repeatedFlag
  /-- A negation stands here twice. -/
  | repeatedNegation
  /-- The text ends among flags. -/
  | openFlags
  /-- There is no such flag. -/
  | unknownFlag
  /-- Two groups have the same name. -/
  | repeatedName
  /-- A group's name has no characters. -/
  | emptyName
  /-- This character cannot be in a name. -/
  | nameCharacter
  /-- The text ends in a name. -/
  | openName
  /-- A group is open at the end. -/
  | openGroup
  /-- There is no group to close. -/
  | noGroup
  /-- Groups and brackets are nested too deep. -/
  | deepNesting (limit : Nat)
  /-- The most repetitions are fewer than the least. -/
  | emptyCount
  /-- There is no number where one counts repetitions. -/
  | noCount
  /-- The count of repetitions is open at the end. -/
  | openCount
  /-- There is nothing to repeat. -/
  | nothingToRepeat
  /-- The name of a kind of word boundary is not closed. -/
  | openBoundary
  /-- There is no such kind of word boundary. -/
  | unknownBoundary
  /-- The text ends behind a word boundary and a brace. -/
  | openBoundaryOrCount
  /-- This is no name of a property. -/
  | noProperty
  /-- References to groups are not supported. -/
  | reference
  /-- Looking around is not supported. -/
  | lookAround
  /-- Only simple characters are allowed here. -/
  | characterNotAllowed
  /-- This may match what is no text. -/
  | noText
  /-- There is no such property. -/
  | unknownProperty
  /-- There is no such value of a property. -/
  | unknownValue
  /-- The table for this class is missing. -/
  | missingClass
  /-- The table for upper and lower case is missing. -/
  | missingCase
  deriving DecidableEq, Repr

/-- What is reported. -/
def FlawKind.message : FlawKind → String
  | .escapeInBrackets => "invalid escape sequence found in character class"
  | .emptyRange => "invalid character class range, the start must be <= the end"
  | .rangeEnd => "invalid range boundary, must be a literal"
  | .openBrackets => "unclosed character class"
  | .noDigits => "decimal literal empty"
  | .largeNumber => "decimal literal invalid"
  | .noHexDigits => "hexadecimal literal empty"
  | .noCharacter => "hexadecimal literal is not a Unicode scalar value"
  | .noHexDigit => "invalid hexadecimal digit"
  | .openEscape => "incomplete escape sequence, reached end of pattern prematurely"
  | .unknownEscape => "unrecognized escape sequence"
  | .danglingNegation => "dangling flag negation operator"
  | .repeatedFlag => "duplicate flag"
  | .repeatedNegation => "flag negation operator repeated"
  | .openFlags => "expected flag but got end of regex"
  | .unknownFlag => "unrecognized flag"
  | .repeatedName => "duplicate capture group name"
  | .emptyName => "empty capture group name"
  | .nameCharacter => "invalid capture group character"
  | .openName => "unclosed capture group name"
  | .openGroup => "unclosed group"
  | .noGroup => "unopened group"
  | .deepNesting limit =>
    "exceed the maximum number of nested parentheses/brackets (" ++ toString limit ++ ")"
  | .emptyCount => "invalid repetition count range, the start must be <= the end"
  | .noCount => "repetition quantifier expects a valid decimal"
  | .openCount => "unclosed counted repetition"
  | .nothingToRepeat => "repetition operator missing expression"
  | .openBoundary =>
    "special word boundary assertion is either unclosed or contains an invalid character"
  | .unknownBoundary =>
    "unrecognized special word boundary assertion, valid choices are: start, end, start-half or "
      ++ "end-half"
  | .openBoundaryOrCount =>
    "found either the beginning of a special word boundary or a bounded repetition on a \\b with "
      ++ "an opening brace, but no closing brace"
  | .noProperty => "invalid Unicode character class"
  | .reference => "backreferences are not supported"
  | .lookAround => "look-around, including look-ahead and look-behind, is not supported"
  | .characterNotAllowed => "Unicode not allowed here"
  | .noText => "pattern can match invalid UTF-8"
  | .unknownProperty => "Unicode property not found"
  | .unknownValue => "Unicode property value not found"
  | .missingClass =>
    "Unicode-aware Perl class not found (make sure the unicode-perl feature is enabled)"
  | .missingCase =>
    "Unicode-aware case insensitivity matching is not available (make sure the unicode-case "
      ++ "feature is enabled)"

/-- Something wrong at some place. -/
structure Flaw where
  kind : FlawKind
  place : Span
  /-- Where the same thing stands for the first time. -/
  first : Option Span
  deriving DecidableEq, Repr

/-- The line that sets a text with several lines apart from the rest of a report. -/
def divider : String := String.ofList (List.replicate 79 '~') ++ "\n"

/-- The report of a flaw in the text of a pattern. -/
def Flaw.report (text : String) (f : Flaw) : String :=
  let places := f.place :: f.first.toList
  let marked := Marked.text text places
  let shown :=
    if text.toList.contains '\n' then
      divider ++ marked ++ divider ++ Marked.namesOfLong places
    else marked
  "regex parse error:\n" ++ shown ++ "error: " ++ f.kind.message

end Sm83.Pattern
