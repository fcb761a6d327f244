import Sm83.Pattern.Look
import Sm83.Text.Place

/-!
# Expressions

What the text of a pattern says, part by part and with the place of each part: which characters are
looked for, how often, in which order.  What the parts mean together, and whether they mean anything,
depends on the flags that are set before them.
-/

namespace Sm83.Pattern

open Sm83.Text

/-! ## Single characters and places -/

/-- A character that stands for itself. -/
structure Literal where
  place : Span
  char : Char
  /-- It was written with two hexadecimal digits, which may also mean a byte. -/
  isByte : Bool
  deriving DecidableEq, Repr

/-- A condition on a place between characters. -/
inductive Anchor
  | lineStart | lineEnd | textStart | textEnd
  | word (edge : WordEdge)
  deriving DecidableEq, Repr

/-- A class of characters that one letter stands for. -/
inductive Shorthand
  | digit | space | word
  deriving DecidableEq, Repr

/-- An expression of one element. -/
inductive Primitive
  | literal (l : Literal)
  /-- Any character. -/
  | dot (place : Span)
  | anchor (place : Span) (kind : Anchor)
  | shorthand (place : Span) (negated : Bool) (kind : Shorthand)
  /-- The characters with a property, which has a name unless it is a name with a value. -/
  | property (place : Span) (name : Option String)
  deriving DecidableEq, Repr

/-- Where a primitive expression stands. -/
def Primitive.place : Primitive → Span
  | .literal l => l.place
  | .dot place | .anchor place _ | .shorthand place _ _ | .property place _ => place

/-! ## Brackets -/

/-- A named class of simple characters. -/
inductive NamedClass
  | alnum | alpha | ascii | blank | cntrl | digit | graph | lower | print | punct | space | upper
  | word | xdigit
  deriving DecidableEq, Repr

/-- The class of a name. -/
def NamedClass.ofName? : String → Option NamedClass
  | "alnum" => some .alnum
  | "alpha" => some .alpha
  | "ascii" => some .ascii
  | "blank" => some .blank
  | "cntrl" => some .cntrl
  | "digit" => some .digit
  | "graph" => some .graph
  | "lower" => some .lower
  | "print" => some .print
  | "punct" => some .punct
  | "space" => some .space
  | "upper" => some .upper
  | "word" => some .word
  | "xdigit" => some .xdigit
  | _ => none

/-- How two sets are combined. -/
inductive SetOperation
  | intersection | difference | symmetricDifference
  deriving DecidableEq, Repr

/-- What stands in brackets. -/
inductive SetExpression
  | empty (place : Span)
  | literal (l : Literal)
  | range (place : Span) (first last : Literal)
  | named (place : Span) (negated : Bool) (kind : NamedClass)
  | shorthand (place : Span) (negated : Bool) (kind : Shorthand)
  | property (place : Span) (name : Option String)
  | brackets (place : Span) (negated : Bool) (set : SetExpression)
  | union (place : Span) (parts : List SetExpression)
  | operation (place : Span) (op : SetOperation) (left right : SetExpression)

/-- Where a set stands. -/
def SetExpression.place : SetExpression → Span
  | .literal l => l.place
  | .empty place | .range place _ _ | .named place _ _ | .shorthand place _ _ | .property place _
  | .brackets place _ _ | .union place _ | .operation place _ _ _ => place

/-! ## Expressions -/

/-- What can be switched on and off in a pattern. -/
inductive Flag
  | ignoreCase | multiLine | dotMatchesLineEnd | swapGreed | unicode | crlf | ignoreBlanks
  deriving DecidableEq, Repr

/-- A flag or, if there is none, the sign that switches those behind it off. -/
structure FlagItem where
  place : Span
  flag : Option Flag
  deriving DecidableEq, Repr

/-- What flags say of one of them, if anything. -/
def FlagItem.state? (flag : Flag) : List FlagItem → Option Bool
  | [] => none
  | item :: rest =>
    match item.flag with
    | none => if rest.any (·.flag = some flag) then some false else none
    | some f => if f = flag then some true else state? flag rest

/-- What the text of a pattern says. -/
inductive Expression
  | empty (place : Span)
  /-- Flags for what follows. -/
  | flags (place : Span) (items : List FlagItem)
  | primitive (p : Primitive)
  | brackets (place : Span) (negated : Bool) (set : SetExpression)
  /-- At least so many repetitions, and at most so many if there is a limit. -/
  | repetition (place : Span) (least : Nat) (most : Option Nat) (sub : Expression)
  /-- A group, with flags for what is in it. -/
  | group (place : Span) (captures : Bool) (items : List FlagItem) (sub : Expression)
  | sequence (place : Span) (parts : List Expression)
  | choice (place : Span) (branches : List Expression)

/-- Where an expression stands. -/
def Expression.place : Expression → Span
  | .primitive p => p.place
  | .empty place | .flags place _ | .brackets place _ _ | .repetition place _ _ _
  | .group place _ _ _ | .sequence place _ | .choice place _ => place

end Sm83.Pattern
