/-!
# Sets of characters

Sets of characters as ranges of codes, first and last.
-/

namespace Sm83.Pattern

/-- Ranges of codes. -/
abbrev CharacterSet := List (Nat × Nat)

namespace CharacterSet

/-- Whether a code is in a set. -/
def has (s : CharacterSet) (code : Nat) : Bool :=
  s.any fun range => range.1 ≤ code && code ≤ range.2

/-- The codes of all characters. -/
def characters : CharacterSet := [(0, 0xD7FF), (0xE000, 0x10FFFF)]

/-- The codes of all bytes. -/
def bytes : CharacterSet := [(0, 0xFF)]

/-- The set of one range. -/
def range (first last : Nat) : CharacterSet := [(first, last)]

/-- What two sets have, one or the other. -/
def union (s t : CharacterSet) : CharacterSet := s ++ t

/-- What two ranges share. -/
def overlap (r q : Nat × Nat) : CharacterSet :=
  if max r.1 q.1 ≤ min r.2 q.2 then [(max r.1 q.1, min r.2 q.2)] else []

/-- What two sets share. -/
def intersection (s t : CharacterSet) : CharacterSet := s.flatMap fun r => t.flatMap (overlap r)

/-- What a range leaves of another. -/
def remainder (r q : Nat × Nat) : CharacterSet :=
  (if r.1 < q.1 then [(r.1, min r.2 (q.1 - 1))] else [])
    ++ if q.2 < r.2 then [(max r.1 (q.2 + 1), r.2)] else []

/-- What a set has and another does not. -/
def difference (s t : CharacterSet) : CharacterSet :=
  t.foldl (fun left q => left.flatMap fun r => remainder r q) s

/-- What only one of two sets has. -/
def symmetricDifference (s t : CharacterSet) : CharacterSet :=
  (s.difference t).union (t.difference s)

/-- Whether a set has simple characters alone. -/
def isSimple (s : CharacterSet) : Bool := s.all fun range => range.2 < 0x80

/-- A set with the simple letters of the other case, too. -/
def withOtherCase (s : CharacterSet) : CharacterSet :=
  let shift (low high offset : Nat) : CharacterSet :=
    (s.intersection [(low, high)]).map fun range => (range.1 + offset - 32, range.2 + offset - 32)
  (s.union (shift 0x41 0x5A 64)).union (shift 0x61 0x7A 0)

end CharacterSet

end Sm83.Pattern
