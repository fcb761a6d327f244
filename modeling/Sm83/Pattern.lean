import Sm83.Pattern.Interpretation
import Sm83.Pattern.Nesting
import Sm83.Pattern.Parser
import Sm83.Pattern.Search
import Sm83.Pattern.Size

/-!
# Patterns

A pattern is a text that says what other texts have to contain.  It is read as an expression, which may
not be nested too deep and has to have a meaning; that may not be too large and may not ask for words of
letters beyond the simple ones.
-/

namespace Sm83

/-- What some texts contain. -/
structure Pattern where
  meaning : Pattern.Meaning
  /-- Words are words of simple letters. -/
  isSimple : meaning.isSimple = true

namespace Pattern

/-- Why a text is no pattern. -/
inductive Refusal
  /-- There is a flaw in the text. -/
  | flawed (text : String) (flaw : Flaw)
  /-- The pattern takes more memory than is allowed. -/
  | tooLarge
  /-- The pattern asks for words of all letters. -/
  | unknownLetters

/-- What is reported. -/
def Refusal.message : Refusal → String
  | .flawed text flaw => flaw.report text
  | .tooLarge => "Compiled regex exceeds size limit of " ++ toString largest ++ " bytes."
  | .unknownLetters => "error building NFA"

/-- What the text of a pattern means. -/
def Meaning.ofString (text : String) : Except Flaw Meaning := do
  let expression ← Expression.ofString text
  expression.checkNesting 0
  let (meaning, _) ← expression.meaning Mode.initial
  return meaning

/-- Read a pattern. -/
def ofString (text : String) : Except Refusal Pattern :=
  match Meaning.ofString text with
  | .error flaw => .error (.flawed text flaw)
  | .ok meaning =>
    if meaning.total > largest then .error .tooLarge
    else if h : meaning.isSimple = true then .ok ⟨meaning, h⟩
    else .error .unknownLetters

/-- Whether a text contains what a pattern says. -/
def occursIn (p : Pattern) (s : String) : Bool := p.meaning.occursIn s

end Pattern

end Sm83
