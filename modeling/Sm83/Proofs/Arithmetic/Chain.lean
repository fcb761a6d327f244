import Mathlib.Data.Nat.Digits.Defs
import Sm83.Flags

/-!
# Operations chained through the carry

A number wider than a byte is worked on a byte at a time, and the carry of one operation goes into
the next.  `chain` is such a sequence of operations: what each of them leaves, and the carry after
the last.  `number` is what a list of digits stands for in a base, the lowest digit first.

An operation is exact if result and outgoing carry together hold all that went in.  The law of a
single operation is enough for the chain:

* `number_chain` — upwards, the carry that comes out is worth as much as all digits together have
  places.
* `number_chain_down` — downwards, from the highest digit, the bit that comes in is worth that much.

`number_chain_sum` and `number_chain_difference` are the first for operations on two numbers.  A
number has one list of bytes of given length (`value_inj`), which is how two chains are compared
without a look at a single byte of them.
-/

namespace Sm83.Alu

/-! ## Chains -/

/-- What a chain of operations leaves: a byte with flags for each of them, and the carry after the
last. -/
structure Chained where
  /-- What each operation leaves, in the order they are done. -/
  results : List (UInt8 × Flags)
  /-- The carry after the last operation; the incoming one if there is none. -/
  carry : Bool
  deriving DecidableEq, Repr

/-- The bytes a chain leaves. -/
def Chained.bytes (chained : Chained) : List UInt8 := chained.results.map Prod.fst

/-- The carries that went in, from the one `carry` the first operation had: `c` of each operation
goes into the next. -/
def Chained.incoming (chained : Chained) (carry : Bool) : List Bool :=
  carry :: chained.results.map fun result => result.2.c

/-- The results in the other order, for a chain that went down from the highest byte. -/
def Chained.reversed (chained : Chained) : Chained := ⟨chained.results.reverse, chained.carry⟩

theorem Chained.bytes_reversed (chained : Chained) :
    chained.reversed.bytes = chained.bytes.reverse := List.map_reverse

variable {α : Type}

/-- One operation for each item, each with the carry the one before left. -/
def chain (operation : α → Bool → UInt8 × Flags) : List α → Bool → Chained
  | [], carry => ⟨[], carry⟩
  | item :: items, carry =>
    let result := operation item carry
    let rest := chain operation items result.2.c
    ⟨result :: rest.results, rest.carry⟩

section Chain

variable (operation : α → Bool → UInt8 × Flags)

@[simp] theorem chain_nil (carry : Bool) : chain operation [] carry = ⟨[], carry⟩ := rfl

@[simp] theorem carry_chain_cons (item : α) (items : List α) (carry : Bool) :
    (chain operation (item :: items) carry).carry
      = (chain operation items (operation item carry).2.c).carry := rfl

@[simp] theorem bytes_chain_cons (item : α) (items : List α) (carry : Bool) :
    (chain operation (item :: items) carry).bytes
      = (operation item carry).1 :: (chain operation items (operation item carry).2.c).bytes := rfl

@[simp] theorem length_results_chain (items : List α) (carry : Bool) :
    (chain operation items carry).results.length = items.length := by
  induction items generalizing carry with
  | nil => rfl
  | cons item items ih => exact congrArg Nat.succ (ih _)

@[simp] theorem length_bytes_chain (items : List α) (carry : Bool) :
    (chain operation items carry).bytes.length = items.length := by
  rw [Chained.bytes, List.length_map, length_results_chain]

/-- What the operation in place `i` leaves is what it leaves of its item and the carry that came to
it. -/
theorem getElem?_results_chain {items : List α} {i : Nat} {item : α} {start carry : Bool}
    (hitem : items[i]? = some item)
    (hcarry : ((chain operation items start).incoming start)[i]? = some carry) :
    (chain operation items start).results[i]? = some (operation item carry) := by
  induction items generalizing i start with
  | nil => cases hitem
  | cons first items ih =>
    cases i with
    | zero =>
      obtain rfl : first = item := Option.some.inj hitem
      obtain rfl : start = carry := Option.some.inj hcarry
      rfl
    | succ i => exact ih hitem hcarry

/-- What every operation leaves of an item of the list holds of all results. -/
theorem forall_mem_results_chain {items : List α} {P : UInt8 × Flags → Prop}
    (h : ∀ item ∈ items, ∀ carry, P (operation item carry)) (start : Bool) :
    ∀ result ∈ (chain operation items start).results, P result := by
  induction items generalizing start with
  | nil => exact fun _ hmem => absurd hmem List.not_mem_nil
  | cons first items ih =>
    intro result hmem
    obtain rfl | hmem := List.mem_cons.1 hmem
    · exact h first List.mem_cons_self start
    · exact ih (fun item hitem => h item (List.mem_cons_of_mem _ hitem)) _ result hmem

end Chain

/-! ## Numbers -/

/-- The number a list stands for, each item worth a digit, the lowest first. -/
def number (base : Nat) (digit : α → Nat) (items : List α) : Nat :=
  Nat.ofDigits base (items.map digit)

section Number

variable (base : Nat) (digit : α → Nat)

@[simp] theorem number_nil : number base digit [] = 0 := rfl

@[simp] theorem number_cons (item : α) (items : List α) :
    number base digit (item :: items) = digit item + base * number base digit items :=
  Nat.ofDigits_cons

/-- A further digit at the high end. -/
theorem number_concat (items : List α) (item : α) :
    number base digit (items ++ [item])
      = number base digit items + base ^ items.length * digit item := by
  simp only [number, List.map_append, List.map_cons, List.map_nil, Nat.ofDigits_append,
    List.length_map, Nat.ofDigits_singleton]

/-- Digits that are sums make the sum of the numbers. -/
theorem number_add (other : α → Nat) (items : List α) :
    number base (fun item => digit item + other item) items
      = number base digit items + number base other items := by
  induction items with
  | nil => rfl
  | cons item items ih =>
    simp only [number_cons, ih, Nat.mul_add]
    omega

theorem number_mul (factor : Nat) (items : List α) :
    number base (fun item => factor * digit item) items = factor * number base digit items := by
  rw [number, number, Nat.mul_ofDigits, List.map_map]
  rfl

/-- Of two lists side by side, the number of the first. -/
theorem number_zip_fst {β : Type} {items : List α} {others : List β}
    (h : items.length = others.length) :
    number base (fun pair => digit pair.1) (items.zip others) = number base digit items := by
  have hmap := List.map_map (g := digit) (f := Prod.fst) (l := items.zip others)
  rw [List.map_fst_zip h.le] at hmap
  rw [number, number, hmap]
  rfl

/-- Of two lists side by side, the number of the second. -/
theorem number_zip_snd {β : Type} {items : List β} {others : List α}
    (h : items.length = others.length) :
    number base (fun pair => digit pair.2) (items.zip others) = number base digit others := by
  have hmap := List.map_map (g := digit) (f := Prod.snd) (l := items.zip others)
  rw [List.map_snd_zip h.ge] at hmap
  rw [number, number, hmap]
  rfl

variable {base digit}

theorem number_lt (hbase : 1 < base) {items : List α} (h : ∀ item ∈ items, digit item < base) :
    number base digit items < base ^ items.length := by
  have hlt := Nat.ofDigits_lt_base_pow_length hbase (List.forall_mem_map.2 h)
  rwa [List.length_map] at hlt

/-- Two lists of equally many digits that stand for the same number are the same. -/
theorem number_inj (hbase : 1 < base) (hinjective : digit.Injective)
    (hlt : ∀ item, digit item < base) {items others : List α} (hlength : items.length = others.length)
    (h : number base digit items = number base digit others) : items = others := by
  have hdigits : ∀ list : List α, ∀ d ∈ list.map digit, d < base := fun list =>
    List.forall_mem_map.2 fun item _ => hlt item
  have hmaps := Nat.ofDigits_inj_of_len_eq hbase
    (by rw [List.length_map, List.length_map, hlength]) (hdigits items) (hdigits others) h
  exact (List.map_inj_right fun _ _ heq => hinjective heq).1 hmaps

/-- A number below the place of its carry determines both. -/
theorem eq_and_carry_eq {a b place : Nat} (ha : a < place) (hb : b < place) {c d : Bool}
    (h : a + place * c.toNat = b + place * d.toNat) : a = b ∧ c = d := by
  cases c <;> cases d <;> simp only [Bool.toNat_false, Bool.toNat_true] at h <;> simp <;> omega

/-- A doubled number and the bit below it determine both. -/
theorem eq_and_bit_eq {a b : Nat} {c d : Bool} (h : 2 * a + c.toNat = 2 * b + d.toNat) :
    a = b ∧ c = d := by
  cases c <;> cases d <;> simp only [Bool.toNat_false, Bool.toNat_true] at h <;> simp <;> omega

end Number

/-! ## Numbers of bytes -/

/-- The number a list of bytes stands for, the lowest byte first. -/
abbrev value (bytes : List UInt8) : Nat := number 256 UInt8.toNat bytes

theorem value_lt (bytes : List UInt8) : value bytes < 256 ^ bytes.length :=
  number_lt (by decide) fun byte _ => byte.toNat_lt

theorem value_inj {xs ys : List UInt8} (hlength : xs.length = ys.length)
    (h : value xs = value ys) : xs = ys :=
  number_inj (by decide) (fun _ _ => UInt8.toNat_inj.1) UInt8.toNat_lt hlength h

/-! ## The law of an operation is the law of the chain -/

section Exact

variable (base : Nat) (operation : α → Bool → UInt8 × Flags)

/-- Upwards: if each operation balances what it takes and leaves with the two carries, so does the
chain, in which the outgoing carry stands above the highest digit. -/
theorem number_chain (left right : α → UInt8 → Nat) {items : List α}
    (balanced : ∀ item ∈ items, ∀ carry,
      left item (operation item carry).1 + base * (operation item carry).2.c.toNat
        = right item (operation item carry).1 + carry.toNat)
    (carry : Bool) :
    number base (fun pair => left pair.1 pair.2) (items.zip (chain operation items carry).bytes)
        + base ^ items.length * (chain operation items carry).carry.toNat
      = number base (fun pair => right pair.1 pair.2)
          (items.zip (chain operation items carry).bytes) + carry.toNat := by
  induction items generalizing carry with
  | nil => rw [List.length_nil, pow_zero, Nat.one_mul]; rfl
  | cons item items ih =>
    have hitem := balanced item List.mem_cons_self carry
    have hrest := congrArg (base * ·) <| ih
      (fun other hother => balanced other (List.mem_cons_of_mem _ hother))
      (operation item carry).2.c
    simp only [Nat.mul_add, ← Nat.mul_assoc] at hrest
    simp only [bytes_chain_cons, carry_chain_cons, List.zip_cons_cons, number_cons,
      List.length_cons, Nat.pow_succ']
    omega

/-- Downwards, with the highest digit first: the carry that comes in stands above the highest
digit. -/
theorem number_chain_down (left : UInt8 → Nat) (right : α → Nat)
    (balanced : ∀ item carry, left (operation item carry).1 + (operation item carry).2.c.toNat
      = right item + base * carry.toNat)
    (items : List α) (carry : Bool) :
    number base left (chain operation items carry).bytes.reverse
        + (chain operation items carry).carry.toNat
      = number base right items.reverse + base ^ items.length * carry.toNat := by
  induction items generalizing carry with
  | nil => rw [List.length_nil, pow_zero, Nat.one_mul]; rfl
  | cons item items ih =>
    have hitem := congrArg (base ^ items.length * ·) (balanced item carry)
    have hrest := ih (operation item carry).2.c
    simp only [Nat.mul_add, ← Nat.mul_assoc] at hitem
    simp only [bytes_chain_cons, carry_chain_cons, List.reverse_cons, number_concat,
      List.length_reverse, length_bytes_chain, List.length_cons, Nat.pow_succ]
    omega

end Exact

/-! ## Operations on two numbers -/

section Operands

variable (base : Nat) (digit : UInt8 → Nat) (operation : UInt8 × UInt8 → Bool → UInt8 × Flags)
  {xs ys : List UInt8}

/-- What is left in place `i` comes from the operands in that place and the carry that came to
them. -/
theorem result_eq_operation {i : Nat} {x y : UInt8} {start carry : Bool} {result : UInt8 × Flags}
    (hx : xs[i]? = some x) (hy : ys[i]? = some y)
    (hcarry : ((chain operation (xs.zip ys) start).incoming start)[i]? = some carry)
    (hresult : (chain operation (xs.zip ys) start).results[i]? = some result) :
    result = operation (x, y) carry := by
  have hpair : (xs.zip ys)[i]? = some (x, y) := List.getElem?_zip_eq_some.2 ⟨hx, hy⟩
  exact Option.some.inj (hresult.symm.trans (getElem?_results_chain operation hpair hcarry))

variable (hlength : xs.length = ys.length)

include hlength

theorem length_operands : (xs.zip ys).length = xs.length := by
  rw [List.length_zip, ← hlength, Nat.min_self]

/-- A chain over two numbers of equal length leaves one of that length. -/
theorem length_bytes_chain_zip (carry : Bool) :
    (chain operation (xs.zip ys) carry).bytes.length = xs.length := by
  rw [length_bytes_chain, length_operands hlength]

/-- Operations that add digit by digit add the numbers. -/
theorem number_chain_sum
    (sum : ∀ pair ∈ xs.zip ys, ∀ carry,
      digit (operation pair carry).1 + base * (operation pair carry).2.c.toNat
        = digit pair.1 + digit pair.2 + carry.toNat)
    (carry : Bool) :
    number base digit (chain operation (xs.zip ys) carry).bytes
        + base ^ xs.length * (chain operation (xs.zip ys) carry).carry.toNat
      = number base digit xs + number base digit ys + carry.toNat := by
  have hbytes := (length_bytes_chain operation (xs.zip ys) carry).symm
  have h := number_chain base operation (fun _ z => digit z)
    (fun pair _ => digit pair.1 + digit pair.2) sum carry
  rw [number_zip_snd base digit hbytes,
    number_zip_fst base (fun pair => digit pair.1 + digit pair.2) hbytes, number_add,
    number_zip_fst base digit hlength, number_zip_snd base digit hlength,
    length_operands hlength] at h
  exact h

/-- Operations that subtract digit by digit subtract the numbers. -/
theorem number_chain_difference
    (difference : ∀ pair ∈ xs.zip ys, ∀ borrow,
      digit (operation pair borrow).1 + digit pair.2 + borrow.toNat
        = digit pair.1 + base * (operation pair borrow).2.c.toNat)
    (borrow : Bool) :
    number base digit (chain operation (xs.zip ys) borrow).bytes + number base digit ys
        + borrow.toNat
      = number base digit xs
        + base ^ xs.length * (chain operation (xs.zip ys) borrow).carry.toNat := by
  have hbytes := (length_bytes_chain operation (xs.zip ys) borrow).symm
  have h := number_chain base operation (fun pair _ => digit pair.1)
    (fun pair z => digit z + digit pair.2)
    (fun pair hpair borrow => (difference pair hpair borrow).symm) borrow
  rw [number_add, number_zip_snd base digit hbytes,
    number_zip_fst base (fun pair => digit pair.1) hbytes,
    number_zip_fst base (fun pair => digit pair.2) hbytes,
    number_zip_fst base digit hlength, number_zip_snd base digit hlength,
    length_operands hlength] at h
  exact h.symm

end Operands

end Sm83.Alu
