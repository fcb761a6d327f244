import Sm83.Pattern.Meaning

/-!
# Searching a text

A search goes over all matches at the same time.  For each place in the text it is known whether what
has been found so far may end there; each part of a pattern takes such marks on places to others.

Repetitions come to an end by themselves: as soon as one of them changes no mark, none of those behind
it does.
-/

namespace Sm83.Pattern

/-! ## Repeated functions -/

/-- Apply a function so many times.  It is not applied again where it has changed nothing. -/
def repeatedly {α : Type} [DecidableEq α] (f : α → α) : Nat → α → α
  | 0, x => x
  | n + 1, x => if f x = x then x else repeatedly f n (f x)

/-! ## Marks -/

/-- Marks on the places of a text, first to last. -/
abbrev Marks := List Bool

namespace Marks

/-- Marks where either of two texts of marks has one. -/
def or (a b : Marks) : Marks := List.zipWith (· || ·) a b

/-- Marks that stay on the places that are as asked. -/
def stay (asked : Look) (gaps : List Gap) (marks : Marks) : Marks :=
  List.zipWith (fun g marked => marked && asked.holds g) gaps marks

/-- Marks that go on by one place where there is a character of some set; `carried` says whether one
goes on to the first place. -/
def step (set : CharacterSet) (carried : Bool) : List Gap → Marks → Marks
  | g :: gaps, marked :: marks =>
    carried :: step set (marked && g.behind.any fun c => set.has c.toNat) gaps marks
  | _, _ => []

end Marks

/-! ## Matches -/

namespace Meaning

/-- Where matches may end that start at the marked places. -/
def ends (gaps : List Gap) : Meaning → Marks → Marks
  | .empty, marks => marks
  | .one set, marks => Marks.step set false gaps marks
  | .look asked, marks => marks.stay asked gaps
  | .both first second, marks => second.ends gaps (first.ends gaps marks)
  | .either first second, marks => (first.ends gaps marks).or (second.ends gaps marks)
  | .times least most sub, marks =>
    let once := sub.ends gaps
    let more := match most with
      | none => gaps.length
      | some most => most - least
    repeatedly (fun marks => marks.or (once marks)) more (repeatedly once least marks)
  | .group sub, marks => sub.ends gaps marks

/-- Whether there is a match somewhere in a text. -/
def occursIn (m : Meaning) (s : String) : Bool :=
  let gaps := Gap.ofString s
  (m.ends gaps (gaps.map fun _ => true)).any id

end Meaning

end Sm83.Pattern
