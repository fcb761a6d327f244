import Sm83.Pattern.Expression
import Sm83.Pattern.Flaw
import Sm83.Pattern.Meaning

/-!
# The meaning of expressions

What an expression means depends on the flags that are set where it stands: they hold from there to the
end of the group, in all branches of a choice that are still to come.

There are no tables of letters beyond the simple ones, so some expressions that ask for them have no
meaning.  Without the flag for them an expression stands for bytes, but these have to be text.
-/

namespace Sm83.Pattern

open Sm83.Text

/-! ## Flags -/

/-- Which flags are set. -/
structure Mode where
  ignoreCase : Bool
  multiLine : Bool
  dotMatchesLineEnd : Bool
  unicode : Bool
  crlf : Bool
  deriving DecidableEq, Repr

namespace Mode

/-- The flags at the beginning. -/
def initial : Mode := ⟨false, false, false, true, false⟩

/-- Set flags. -/
def apply (m : Mode) (items : List FlagItem) : Mode :=
  { ignoreCase := (FlagItem.state? .ignoreCase items).getD m.ignoreCase
    multiLine := (FlagItem.state? .multiLine items).getD m.multiLine
    dotMatchesLineEnd := (FlagItem.state? .dotMatchesLineEnd items).getD m.dotMatchesLineEnd
    unicode := (FlagItem.state? .unicode items).getD m.unicode
    crlf := (FlagItem.state? .crlf items).getD m.crlf }

end Mode

/-- Something with a meaning, unless there is a flaw. -/
abbrev Checked := Except Flaw

/-- A flaw at some place. -/
def flawAt {α : Type} (kind : FlawKind) (place : Span) : Checked α := .error ⟨kind, place, none⟩

/-! ## Classes of characters -/

namespace NamedClass

/-- The characters of a named class. -/
def set : NamedClass → CharacterSet
  | .alnum => [(0x30, 0x39), (0x41, 0x5A), (0x61, 0x7A)]
  | .alpha => [(0x41, 0x5A), (0x61, 0x7A)]
  | .ascii => [(0, 0x7F)]
  | .blank => [(0x09, 0x09), (0x20, 0x20)]
  | .cntrl => [(0, 0x1F), (0x7F, 0x7F)]
  | .digit => [(0x30, 0x39)]
  | .graph => [(0x21, 0x7E)]
  | .lower => [(0x61, 0x7A)]
  | .print => [(0x20, 0x7E)]
  | .punct => [(0x21, 0x2F), (0x3A, 0x40), (0x5B, 0x60), (0x7B, 0x7E)]
  | .space => [(0x09, 0x0D), (0x20, 0x20)]
  | .upper => [(0x41, 0x5A)]
  | .word => [(0x30, 0x39), (0x41, 0x5A), (0x5F, 0x5F), (0x61, 0x7A)]
  | .xdigit => [(0x30, 0x39), (0x41, 0x46), (0x61, 0x66)]

end NamedClass

/-- The named class with the simple characters of a shorthand. -/
def Shorthand.named : Shorthand → NamedClass
  | .digit => .digit
  | .space => .space
  | .word => .word

/-- The meaning of a shorthand. -/
def Shorthand.meaning (m : Mode) (place : Span) (negated : Bool) (kind : Shorthand) :
    Checked CharacterSet :=
  if m.unicode then flawAt .missingClass place
  else if negated then flawAt .noText place
  else .ok kind.named.set

/-- The name of a property as it is looked up: a leading "is" is dropped, and so are blanks, low lines
and hyphens. -/
def propertyKey (name : String) : String :=
  let cs := match name.toList with
    | i :: s :: rest => if i.toLower = 'i' && s.toLower = 's' then rest else i :: s :: rest
    | cs => cs
  let kept := cs.filter fun c => c.toNat < 0x80 && c ≠ ' ' && c ≠ '_' && c ≠ '-'
  String.ofList (kept.map Char.toLower)

/-- Properties have no meaning.  Some short names are those of values, too. -/
def propertyFlaw (m : Mode) (name : Option String) : FlawKind :=
  if !m.unicode then .characterNotAllowed
  else if name.any fun name => ["cf", "sc", "lc"].contains (propertyKey name) then .unknownValue
  else .unknownProperty

/-! ## Sets -/

/-- Whether characters or ranges stand in a set, and not only further sets. -/
def SetExpression.hasCharacters : SetExpression → Bool
  | .literal _ | .range _ _ _ => true
  | .union _ parts => parts.any fun part =>
    match part with
    | .literal _ | .range _ _ _ => true
    | _ => false
  | _ => false

/-- The character of a literal in a set. -/
def Literal.inSet (m : Mode) (l : Literal) : Checked Nat :=
  if m.unicode || l.char.toNat < 0x80 then .ok l.char.toNat
  else if l.isByte then flawAt .noText l.place
  else flawAt .characterNotAllowed l.place

/-- A set with the letters of the other case if case is ignored; `hasCharacters` says whether there are
characters in it for which that is still to be done. -/
def foldCase (m : Mode) (place : Span) (hasCharacters : Bool) (s : CharacterSet) :
    Checked CharacterSet :=
  if !m.ignoreCase then .ok s
  else if !m.unicode then .ok s.withOtherCase
  else if hasCharacters then flawAt .missingCase place
  else .ok s

/-- A set as it is between brackets, where it may be negated. -/
def bracketed (m : Mode) (place : Span) (negated hasCharacters : Bool) (s : CharacterSet) :
    Checked CharacterSet := do
  let s ← foldCase m place hasCharacters s
  if m.unicode then return if negated then CharacterSet.characters.difference s else s
  else
    let s := if negated then CharacterSet.bytes.difference s else s
    if s.isSimple then return s else flawAt .noText place

/-- What has to be done with two sets. -/
def SetOperation.apply : SetOperation → CharacterSet → CharacterSet → CharacterSet
  | .intersection => .intersection
  | .difference => .difference
  | .symmetricDifference => .symmetricDifference

mutual

/-- The characters of a set. -/
def SetExpression.meaning (m : Mode) : SetExpression → Checked CharacterSet
  | .empty _ => return []
  | .literal l => do
    let code ← l.inSet m
    return .range code code
  | .range _ first last => do return .range (← first.inSet m) (← last.inSet m)
  | .named place negated kind => bracketed m place negated true kind.set
  | .shorthand place negated kind => kind.meaning m place negated
  | .property place name => flawAt (propertyFlaw m name) place
  | .brackets place negated set => do
    bracketed m place negated set.hasCharacters (← set.meaning m)
  | .union _ parts => SetExpression.unionMeaning m parts
  | .operation _ op left right => do
    let l ← left.meaning m
    let r ← right.meaning m
    let r ← foldCase m right.place right.hasCharacters r
    let l ← foldCase m left.place left.hasCharacters l
    return op.apply l r

/-- The characters of sets, taken together. -/
def SetExpression.unionMeaning (m : Mode) : List SetExpression → Checked CharacterSet
  | [] => return []
  | set :: rest => do
    let s ← set.meaning m
    return s.union (← SetExpression.unionMeaning m rest)

end

/-! ## Single elements -/

/-- What an anchor asks of a place. -/
def Anchor.look (m : Mode) : Anchor → Look
  | .lineStart => if m.multiLine then .lineStart m.crlf else .textStart
  | .lineEnd => if m.multiLine then .lineEnd m.crlf else .textEnd
  | .textStart => .textStart
  | .textEnd => .textEnd
  | .word edge => .word (!m.unicode) edge

/-- The meaning of a character that stands for itself. -/
def Literal.meaning (m : Mode) (l : Literal) : Checked Meaning :=
  let set := CharacterSet.range l.char.toNat l.char.toNat
  if m.unicode then
    if m.ignoreCase then flawAt .missingCase l.place else .ok (.one set)
  else if l.isByte && 0x80 ≤ l.char.toNat then flawAt .noText l.place
  else .ok (.one (if m.ignoreCase then set.withOtherCase else set))

/-- What a dot stands for: all characters, without those that end lines if it stands for these only
when it is told. -/
def dotSet (m : Mode) : CharacterSet :=
  if m.dotMatchesLineEnd then .characters
  else if m.crlf then CharacterSet.characters.difference [(0x0A, 0x0A), (0x0D, 0x0D)]
  else CharacterSet.characters.difference [(0x0A, 0x0A)]

/-- The meaning of a single element. -/
def Primitive.meaning (m : Mode) : Primitive → Checked Meaning
  | .literal l => l.meaning m
  | .dot place => if m.unicode then .ok (.one (dotSet m)) else flawAt .noText place
  | .anchor _ kind => .ok (.look (kind.look m))
  | .shorthand place negated kind => return .one (← kind.meaning m place negated)
  | .property place name => flawAt (propertyFlaw m name) place

/-! ## Expressions -/

mutual

/-- The meaning of an expression, and the flags behind it. -/
def Expression.meaning (m : Mode) : Expression → Checked (Meaning × Mode)
  | .empty _ => return (.empty, m)
  | .flags _ items => return (.empty, m.apply items)
  | .primitive p => return (← p.meaning m, m)
  | .brackets place negated set => do
    let s ← bracketed m place negated set.hasCharacters (← set.meaning m)
    return (.one s, m)
  | .repetition _ least most sub => do
    let (sub, m) ← sub.meaning m
    return (.repeated least most sub, m)
  | .group _ captures items sub => do
    let (sub, _) ← sub.meaning (m.apply items)
    return (if captures then .group sub else sub, m)
  | .sequence _ parts => do
    let (parts, m) ← Expression.meanings m parts
    return (.sequence parts, m)
  | .choice _ branches => do
    let (branches, m) ← Expression.meanings m branches
    return (.choice branches, m)

/-- The meanings of expressions, where the flags go from one to the next. -/
def Expression.meanings (m : Mode) : List Expression → Checked (List Meaning × Mode)
  | [] => return ([], m)
  | e :: rest => do
    let (first, m) ← e.meaning m
    let (others, m) ← Expression.meanings m rest
    return (first :: others, m)

end

end Sm83.Pattern
