/-!
# Printable text

What is left of a text when everything that is meant for a terminal is taken out of it: control
characters, except for those that lay out text, and escape sequences.

An escape sequence starts with the escape character.  What follows decides of which kind it is and
where it ends:

* a plain sequence ends with its first character that is no intermediate one, and so does a *control
  sequence* (`[`), which may have parameters too;
* a *device string* (`P`) has parameters of its own and then a body, other *strings* (`X`, `^`, `_`)
  have only the body, and an *operating system command* (`]`) has a body that a bell ends.

The characters that cancel and substitute end any sequence, and another escape character starts
another one.  A sequence that is neither ended nor cancelled hides the rest of the text.

Only in the sequences without a body does a layout character count as text.  It is shown, and so is
what stands behind it up to the next control character.  There the sequence goes on, unless a character
from beyond the simplest alphabet was among what was shown, which ends it.

The terminator of a string is a single byte, `0x9C`.  In the encoding of a text that byte stands only
inside of longer characters, so those that have it in them end a string.
-/

namespace Sm83.Text.Printable

/-! ## Classes of characters -/

/-- Whether the code of a character lies between two others. -/
def between (c : Char) (low high : Nat) : Bool := low ≤ c.toNat && c.toNat ≤ high

/-- Tabulator, line feed, form feed and carriage return. -/
def isLayout (c : Char) : Bool :=
  c.toNat = 0x09 || c.toNat = 0x0A || c.toNat = 0x0C || c.toNat = 0x0D

/-- Whether a character is text by itself: it lays out text or is no control character. -/
def isText (c : Char) : Bool := isLayout c || (0x20 ≤ c.toNat && c.toNat ≠ 0x7F)

/-- Whether the byte that ends a string is part of a character. -/
def hasTerminator (c : Char) : Bool := (String.utf8EncodeChar c).contains 0x9C

/-! ## Escape sequences -/

/-- Where in an escape sequence a text is. -/
inductive Mode
  /-- In none. -/
  | text
  /-- Behind the escape character. -/
  | escape
  /-- Behind intermediate characters. -/
  | intermediate
  /-- In a control sequence. -/
  | controlSequence
  /-- At the start of a device string. -/
  | device
  /-- In the parameters of a device string. -/
  | deviceParameters
  /-- In the intermediate characters of a device string. -/
  | deviceIntermediate
  /-- In the body of a string. -/
  | body
  /-- In an operating system command. -/
  | command
  deriving DecidableEq, Repr

namespace Mode

/-- Whether a character is shown. -/
def shows : Mode → Char → Bool
  | .text, c => isText c
  | .escape, c | .intermediate, c | .controlSequence, c => isLayout c
  | .device, _ | .deviceParameters, _ | .deviceIntermediate, _ | .body, _ | .command, _ => false

/-- Where the character behind the escape character leads. -/
def afterEscape (c : Char) : Mode :=
  if between c 0x20 0x2F then .intermediate
  else if c = '[' then .controlSequence
  else if c = ']' then .command
  else if c = 'P' then .device
  else if c = 'X' || c = '^' || c = '_' then .body
  else if between c 0x30 0x7E then .text
  else .escape

/-- Where a character inside of a sequence leads, if it is none that ends every sequence. -/
def inside : Mode → Char → Mode
  | .text, _ => .text
  | .escape, c => afterEscape c
  | .intermediate, c => if between c 0x30 0x7E then .text else .intermediate
  | .controlSequence, c => if between c 0x40 0x7E then .text else .controlSequence
  | .device, c =>
    if between c 0x20 0x2F then .deviceIntermediate
    else if between c 0x30 0x3F then .deviceParameters
    else if between c 0x40 0x7E then .body
    else .device
  | .deviceParameters, c =>
    if between c 0x20 0x2F then .deviceIntermediate
    else if between c 0x3C 0x7E then .body
    else .deviceParameters
  | .deviceIntermediate, c => if between c 0x30 0x7E then .body else .deviceIntermediate
  | .body, c => if hasTerminator c then .text else .body
  | .command, c => if c.toNat = 0x07 then .text else .command

/-- Where a character leads that is not shown. -/
def next (m : Mode) (c : Char) : Mode :=
  if c.toNat = 0x18 || c.toNat = 0x1A then .text
  else if c.toNat = 0x1B then .escape
  else m.inside c

end Mode

/-! ## The text that is left -/

/-- How far a text has come. -/
structure Progress where
  mode : Mode
  /-- The last character was shown, and an escape sequence around it has to wait. -/
  waiting : Bool

namespace Progress

/-- The beginning of a text. -/
def start : Progress := ⟨.text, false⟩

/-- Whether a character is shown. -/
def shows (p : Progress) (c : Char) : Bool := if p.waiting then isText c else p.mode.shows c

/-- What comes after a character. -/
def next (p : Progress) (c : Char) : Progress :=
  if p.shows c then ⟨if c.toNat < 0x80 then p.mode else .text, true⟩ else ⟨p.mode.next c, false⟩

end Progress

/-- What is left of the characters of a text, from some place on. -/
def visible : Progress → List Char → List Char
  | _, [] => []
  | p, c :: rest =>
    if p.shows c then c :: visible (p.next c) rest else visible (p.next c) rest

/-- What is left of a text. -/
def ofString (s : String) : String := String.ofList (visible .start s.toList)

end Sm83.Text.Printable
