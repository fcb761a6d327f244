import Sm83.Bus

/-!
# Flat memory

The simplest bus: one plain byte at each of the `2 ^ 16` addresses, the interrupt registers
included.  No region is decoded and every write is kept.

`get_set`, `get_set_of_ne` and `set_comm` say what a write does; `load` either copies all its bytes
or, when they would run past the end of the address space, none.
-/

namespace Sm83

/-- The number of addresses. -/
abbrev addressSpace : Nat := 65536

/-- Every word is an address. -/
theorem toNat_lt_addressSpace (a : UInt16) : a.toNat < addressSpace := a.toNat_lt

/-- A byte for each address. -/
structure Memory where
  bytes : Vector UInt8 addressSpace
  deriving DecidableEq, Repr

namespace Memory

/-- Memory that holds zero everywhere. -/
def zero : Memory := ⟨Vector.replicate addressSpace 0⟩

instance : Inhabited Memory := ⟨zero⟩

/-- Memory in which a pattern repeats from address zero on; an empty pattern stands for zero. -/
def repeating (pattern : Array UInt8) : Memory :=
  ⟨Vector.ofFn fun a => pattern.getD (a.val % pattern.size) 0⟩

/-- The byte at an address. -/
def get (m : Memory) (a : UInt16) : UInt8 :=
  have := toNat_lt_addressSpace a
  m.bytes[a.toNat]

/-- The memory with one byte replaced. -/
def set (m : Memory) (a : UInt16) (value : UInt8) : Memory :=
  match m with
  | ⟨bytes⟩ => ⟨bytes.set a.toNat value (toNat_lt_addressSpace a)⟩

instance : Bus Memory where
  read a m := (m.get a, m)
  write a value m := m.set a value

/-! ## Loading a block of bytes -/

/-- A block of bytes that runs past the end of the address space. -/
structure LoadError where
  /-- How many bytes there were. -/
  size : Nat
  /-- Where they were to start. -/
  offset : UInt16
  deriving DecidableEq, Repr

/-- What is reported when a block does not fit. -/
def LoadError.message (e : LoadError) : String :=
  toString e.size ++ " bytes at 0x" ++ Text.Hex.word e.offset
    ++ " do not fit in the address space"

/-- Put bytes at consecutive addresses, wrapping at the end of the address space. -/
def setAll (m : Memory) (a : UInt16) : List UInt8 → Memory
  | [] => m
  | value :: rest => (m.set a value).setAll (a + 1) rest

/-- Copy a block of bytes into memory, if all of it fits. -/
def load (m : Memory) (offset : UInt16) (block : List UInt8) : Except LoadError Memory :=
  if offset.toNat + block.length ≤ addressSpace then .ok (m.setAll offset block)
  else .error ⟨block.length, offset⟩

/-- `count` bytes from an address on, wrapping at the end of the address space. -/
def slice (m : Memory) (a : UInt16) : (count : Nat) → List UInt8
  | 0 => []
  | count + 1 => m.get a :: m.slice (a + 1) count

/-- How many bytes are not zero. -/
def countNonzero (m : Memory) : Nat := m.bytes.countP (· != 0)

/-! ## What a write does -/

@[simp] theorem get_set (m : Memory) (a : UInt16) (value : UInt8) : (m.set a value).get a = value :=
  Vector.getElem_set_self (toNat_lt_addressSpace a)

theorem get_set_of_ne (m : Memory) {a b : UInt16} (value : UInt8) (h : a ≠ b) :
    (m.set a value).get b = m.get b :=
  Vector.getElem_set_ne (toNat_lt_addressSpace a) (toNat_lt_addressSpace b)
    fun e => h (UInt16.toNat_inj.1 e)

/-- Writes to different addresses can be exchanged. -/
theorem set_comm (m : Memory) {a b : UInt16} (value value' : UInt8) (h : a ≠ b) :
    (m.set a value).set b value' = (m.set b value').set a value :=
  congrArg mk (Vector.set_comm value value' fun e => h (UInt16.toNat_inj.1 e))

end Memory

end Sm83
