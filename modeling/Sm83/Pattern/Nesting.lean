import Sm83.Pattern.Expression
import Sm83.Pattern.Flaw

/-!
# Nesting

How deep an expression is nested: through groups, repetitions, sequences, choices and brackets.  There
is a limit to it, and the first part that is too deep is the flaw.
-/

namespace Sm83.Pattern

open Sm83.Text

/-- How deep expressions may be nested. -/
def deepest : Nat := 250

/-- The depth inside of a part at some place. -/
def deeper (depth : Nat) (place : Span) : Except Flaw Nat :=
  if depth < deepest then .ok (depth + 1) else .error ⟨.deepNesting deepest, place, none⟩

mutual

/-- Check a set that stands at some depth. -/
def SetExpression.checkNesting (depth : Nat) : SetExpression → Except Flaw Unit
  | .brackets place _ set => do set.checkNesting (← deeper depth place)
  | .union place parts => do SetExpression.checkNestingAll (← deeper depth place) parts
  | .operation place _ left right => do
    let depth ← deeper depth place
    left.checkNesting depth
    right.checkNesting depth
  | .empty _ | .literal _ | .range _ _ _ | .named _ _ _ | .shorthand _ _ _ | .property _ _ =>
    return

/-- Check sets that stand side by side. -/
def SetExpression.checkNestingAll (depth : Nat) : List SetExpression → Except Flaw Unit
  | [] => return
  | set :: rest => do
    set.checkNesting depth
    SetExpression.checkNestingAll depth rest

end

mutual

/-- Check an expression that stands at some depth. -/
def Expression.checkNesting (depth : Nat) : Expression → Except Flaw Unit
  | .empty _ | .flags _ _ | .primitive _ => return
  | .brackets place _ set => do set.checkNesting (← deeper depth place)
  | .repetition place _ _ sub | .group place _ _ sub => do
    sub.checkNesting (← deeper depth place)
  | .sequence place parts | .choice place parts => do
    Expression.checkNestingAll (← deeper depth place) parts

/-- Check expressions that stand side by side. -/
def Expression.checkNestingAll (depth : Nat) : List Expression → Except Flaw Unit
  | [] => return
  | e :: rest => do
    e.checkNesting depth
    Expression.checkNestingAll depth rest

end

end Sm83.Pattern
