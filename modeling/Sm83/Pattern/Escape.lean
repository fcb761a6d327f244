import Sm83.Pattern.Expression
import Sm83.Pattern.Reader

/-!
# Escape sequences

A backslash and what it makes of the characters behind it.  Before a character that has a meaning of
its own it takes the meaning away; before a letter it gives one.  Letters without a meaning are refused,
and so are digits.
-/

namespace Sm83.Pattern.Read

open Sm83.Text

/-! ## Characters by their codes -/

/-- The value of a hexadecimal digit. -/
def hexDigit? (c : Char) : Option Nat :=
  if c.isDigit then some (c.toNat - '0'.toNat)
  else if 'a' ≤ c && c ≤ 'f' then some (c.toNat - 'a'.toNat + 10)
  else if 'A' ≤ c && c ≤ 'F' then some (c.toNat - 'A'.toNat + 10)
  else none

/-- Whether a character is a hexadecimal digit. -/
def isHexDigit (c : Char) : Bool := (hexDigit? c).isSome

/-- The character whose code has these hexadecimal digits. -/
def characterOfHex? (digits : List Char) : Option Char :=
  let code := digits.foldl (fun value c => value * 16 + (hexDigit? c).getD 0) 0
  if Nat.isValidChar code then some (Char.ofNat code) else none

/-- How many digits the letter of a hexadecimal escape sequence asks for. -/
def hexWidth : Char → Nat
  | 'x' => 2
  | 'u' => 4
  | _ => 8

/-- Read exactly so many more digits, with those before them in reverse. -/
def hexDigits (before : List Char) : Nat → Read (List Char)
  | 0 => return before.reverse
  | width + 1 => do
    match ← peek? with
    | none => fail .openEscape (← point)
    | some c =>
      if isHexDigit c then
        advanceToSolid
        hexDigits (c :: before) width
      else fail .noHexDigit (← character)

/-- Read a fixed number of digits. -/
def fixedHex (start : Position) (letter : Char) : Read Primitive := do
  let first ← position
  let digits ← hexDigits [] (hexWidth letter)
  match characterOfHex? digits with
  | none => fail .noCharacter (← since first)
  | some c => return .literal ⟨← since start, c, letter = 'x'⟩

/-- Read digits in braces. -/
def bracedHex (start : Position) : Read Primitive := do
  let brace ← position
  let first := (← character).stop
  advanceToSolid
  let digits ← takeAll isHexDigit
  match ← peek? with
  | none => fail .openEscape (← since brace)
  | some '\x7d' =>
    let last ← position
    advanceToSolid
    if digits.isEmpty then fail .noHexDigits (← since brace)
    match characterOfHex? digits with
    | none => fail .noCharacter ⟨first, last⟩
    | some c => return .literal ⟨← since start, c, false⟩
  | some _ => fail .noHexDigit (← character)

/-- Read a character by its code, behind the backslash at `start`. -/
def hex (start : Position) (letter : Char) : Read Primitive := do
  advanceToSolid
  match ← peek? with
  | none => fail .openEscape (← point)
  | some '\x7b' => bracedHex start
  | some _ => fixedHex start letter

/-! ## Properties -/

/-- The name of a property, unless it is a name with a value. -/
def propertyName (cs : List Char) : Option String :=
  if cs.contains ':' || cs.contains '=' then none else some (String.ofList cs)

/-- Read the name of a property, behind the backslash at `start`. -/
def property (start : Position) : Read Primitive := do
  advanceToSolid
  match ← peek? with
  | none => fail .openEscape (← point)
  | some '\x7b' =>
    advanceToSolid
    let name ← takeAll (· ≠ '\x7d')
    if (← peek?).isNone then fail .openEscape (← point)
    advance
    return .property (← since start) (propertyName name)
  | some '\\' => fail .noProperty (← character)
  | some c =>
    advanceToSolid
    return .property (← since start) (some (String.singleton c))

/-! ## Word boundaries -/

/-- The kinds of word boundaries with names. -/
def boundary? : String → Option WordEdge
  | "start" => some .start
  | "end" => some .stop
  | "start-half" => some .startHalf
  | "end-half" => some .stopHalf
  | _ => none

/-- Whether a character can be in the name of a word boundary. -/
def isBoundaryCharacter (c : Char) : Bool := c.isAlpha || c = '-'

/-- Read the kind of a word boundary in braces, behind the backslash at `start`.  Braces with anything
else in them are left: they count repetitions. -/
def braceBoundary (start : Position) : Read Anchor := do
  let before ← get
  let brace ← position
  advanceToSolid
  let first ← position
  match ← peek? with
  | none => fail .openBoundaryOrCount (← since start)
  | some c =>
    if isBoundaryCharacter c then
      let name ← takeAll isBoundaryCharacter
      if (← peek?) ≠ some '\x7d' then fail .openBoundary (← since brace)
      let last ← position
      advance
      match boundary? (String.ofList name) with
      | none => fail .unknownBoundary ⟨first, last⟩
      | some edge => return .word edge
    else
      set before
      return .word .boundary

/-! ## All escape sequences -/

/-- Whether a backslash makes a character stand for itself: it is a simple one, but neither a letter
nor a digit nor one that stands for a word boundary then. -/
def standsForItself (c : Char) : Bool :=
  c.toNat < 0x80 && !c.isAlphanum && c ≠ '<' && c ≠ '>'

/-- The control characters that letters stand for. -/
def control? : Char → Option Char
  | 'a' => some '\x07'
  | 'f' => some '\x0C'
  | 't' => some '\t'
  | 'n' => some '\n'
  | 'r' => some '\r'
  | 'v' => some '\x0B'
  | _ => none

/-- The classes that letters stand for, and whether they are negated. -/
def shorthand? : Char → Option (Bool × Shorthand)
  | 'd' => some (false, .digit)
  | 's' => some (false, .space)
  | 'w' => some (false, .word)
  | 'D' => some (true, .digit)
  | 'S' => some (true, .space)
  | 'W' => some (true, .word)
  | _ => none

/-- The anchors that characters stand for. -/
def anchor? : Char → Option Anchor
  | 'A' => some .textStart
  | 'z' => some .textEnd
  | 'b' => some (.word .boundary)
  | 'B' => some (.word .noBoundary)
  | '<' => some (.word .start)
  | '>' => some (.word .stop)
  | _ => none

/-- Read what is behind the backslash at `start` and its letter. -/
def escapeBehind (start : Position) (c : Char) : Read Primitive := do
  let place ← since start
  if standsForItself c then return .literal ⟨place, c, false⟩
  match control? c, shorthand? c, anchor? c with
  | some control, _, _ => return .literal ⟨place, control, false⟩
  | none, some (negated, kind), _ => return .shorthand place negated kind
  | none, none, some kind =>
    if c = 'b' && (← peek?) = some '\x7b' then
      let kind ← braceBoundary start
      return .anchor (← since start) kind
    else return .anchor place kind
  | none, none, none => fail .unknownEscape place

/-- Read an escape sequence. -/
def escape : Read Primitive := do
  let start ← position
  advance
  match ← peek? with
  | none => fail .openEscape (← since start)
  | some c =>
    if c.isDigit then fail .reference ⟨start, (← character).stop⟩
    else if c = 'x' || c = 'u' || c = 'U' then hex start c
    else if c = 'p' || c = 'P' then property start
    else
      advance
      escapeBehind start c

end Sm83.Pattern.Read
