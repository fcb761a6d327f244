import Sm83.Pattern.CharacterSet
import Sm83.Pattern.Look

/-!
# What patterns mean

A pattern is made of single characters, of looks at the places between them, and of sequences, choices
and repetitions of these.  Nothing is left here of how it was written, only which groups there were.
-/

namespace Sm83.Pattern

/-- What a pattern looks for. -/
inductive Meaning
  /-- The empty text. -/
  | empty
  /-- A character of some set. -/
  | one (set : CharacterSet)
  /-- The empty text at places that are as asked. -/
  | look (asked : Look)
  /-- One thing and then another. -/
  | both (first second : Meaning)
  /-- One thing or another. -/
  | either (first second : Meaning)
  /-- At least so many repetitions, and at most so many if there is a limit. -/
  | times (least : Nat) (most : Option Nat) (sub : Meaning)
  /-- A group. -/
  | group (sub : Meaning)
  deriving Repr

namespace Meaning

/-- Things in a row. -/
def sequence : List Meaning → Meaning
  | [] => .empty
  | [m] => m
  | m :: rest => .both m (sequence rest)

/-- One of several things. -/
def choice : List Meaning → Meaning
  | [] => .one []
  | [m] => m
  | m :: rest => .either m (choice rest)

/-- Whether nothing but the empty text can be found, so that a repetition does not find more. -/
def isEmptyOnly : Meaning → Bool
  | .empty | .look _ => true
  | .one _ => false
  | .both first second | .either first second => first.isEmptyOnly && second.isEmptyOnly
  | .times _ most sub => most = some 0 || (most.isSome && sub.isEmptyOnly)
  | .group sub => sub.isEmptyOnly

/-- Repetitions.  Of what finds the empty text alone, one is as good as many; no repetition finds the
empty text, and a single one is none. -/
def repeated (least : Nat) (most : Option Nat) (sub : Meaning) : Meaning :=
  let (least, most) :=
    if sub.isEmptyOnly then (min least 1, some ((most.map (min · 1)).getD 1)) else (least, most)
  if most = some 0 then .empty
  else if least = 1 && most = some 1 then sub
  else .times least most sub

/-- Whether looks at words ask for simple letters alone. -/
def isSimple : Meaning → Bool
  | .empty | .one _ => true
  | .look (.word simple _) => simple
  | .look _ => true
  | .both first second | .either first second => first.isSimple && second.isSimple
  | .times _ _ sub | .group sub => sub.isSimple

end Meaning

end Sm83.Pattern
