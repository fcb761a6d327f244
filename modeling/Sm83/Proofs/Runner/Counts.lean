import Mathlib.Tactic.Common
import Sm83.Text.Count

/-!
# Which texts are counts

`ofString` reads a text character by character and gives up at the first that is wrong.  Here it is said
without a reader what comes of a text: the number that its digits write, or the split at which it goes
wrong, with digits in front of it that were still in order.

* `Judged` — what comes of a text.
* `readDigits_append` — digits that are in order can be read in one go, whatever stands behind them.
  So a text that goes wrong does so at the split.
* `judged_append` — there is no further case, since reading only ever adds to the digits in order.
* `ofString_eq_iff` — so `ofString` answers exactly what comes of the text.
-/

namespace Sm83.Text.Count

/-! ## What comes of a text -/

/-- Digits that write a number below the bound. -/
structure Fits (digits : List Char) : Prop where
  allDigits : ∀ c ∈ digits, c.isDigit = true
  bounded : Nat.ofDigitChars 10 digits 0 < bound

/-- What comes of a text: the number it writes, or why it writes none. -/
inductive Judged (text : String) : Except Refusal Nat → Prop
  /-- Digits, at least one, with a plus sign in front or not. -/
  | number {digits : List Char}
      (signed : text.toList = digits ∨ text.toList = '+' :: digits)
      (some : digits ≠ []) (fits : Fits digits) :
      Judged text (.ok (Nat.ofDigitChars 10 digits 0))
  | empty (nothing : text = "") : Judged text (.error .empty)
  /-- Behind digits that are in order stands something else. -/
  | notADigit {digits rest : List Char} {c : Char}
      (split : unsigned text.toList = digits ++ c :: rest)
      (fits : Fits digits) (wrong : c.isDigit = false) :
      Judged text (.error .notADigit)
  /-- Behind digits that are in order stands the one with which the number is too large. -/
  | tooLarge {digits rest : List Char} {c : Char}
      (split : unsigned text.toList = digits ++ c :: rest)
      (fits : Fits digits) (digit : c.isDigit = true)
      (large : bound ≤ Nat.ofDigitChars 10 (digits ++ [c]) 0) :
      Judged text (.error .tooLarge)

/-! ## Reading digits -/

section Digits

variable {value : Nat} {c : Char} {digits rest : List Char}

/-- Digits only add to what those before amount to. -/
theorem le_ofDigitChars (value : Nat) (digits : List Char) :
    value ≤ Nat.ofDigitChars 10 digits value := by
  induction digits generalizing value with
  | nil => exact Nat.le_refl value
  | cons c rest ih =>
    rw [Nat.ofDigitChars_cons]
    exact Nat.le_trans (by omega) (ih _)

theorem readDigits_cons (digit : c.isDigit = true) :
    readDigits value (c :: rest)
      = if Nat.ofDigitChars 10 [c] value < bound then readDigits (Nat.ofDigitChars 10 [c] value) rest
        else .error .tooLarge := by
  rw [readDigits, digit?, if_pos digit, Nat.ofDigitChars_cons, Nat.ofDigitChars_nil, Nat.mul_comm 10]

theorem readDigits_cons_of_wrong (wrong : c.isDigit = false) :
    readDigits value (c :: rest) = .error .notADigit := by
  rw [readDigits, digit?, wrong]
  rfl

/-- Digits that are in order are read in one go. -/
theorem readDigits_append (allDigits : ∀ c ∈ digits, c.isDigit = true)
    (bounded : Nat.ofDigitChars 10 digits value < bound) :
    readDigits value (digits ++ rest) = readDigits (Nat.ofDigitChars 10 digits value) rest := by
  induction digits generalizing value with
  | nil => rw [Nat.ofDigitChars_nil, List.nil_append]
  | cons c digits ih =>
    obtain ⟨digit, others⟩ := List.forall_mem_cons.1 allDigits
    have split : Nat.ofDigitChars 10 (c :: digits) value
        = Nat.ofDigitChars 10 digits (Nat.ofDigitChars 10 [c] value) :=
      Nat.ofDigitChars_append (l := [c]) value
    rw [split] at bounded ⊢
    have small := Nat.lt_of_le_of_lt (le_ofDigitChars _ digits) bounded
    rw [List.cons_append, readDigits_cons digit, if_pos small, ih others bounded]

namespace Fits

theorem nil : Fits [] := ⟨fun _ member => absurd member List.not_mem_nil, by decide⟩

/-- One more digit is in order as long as the number stays below the bound. -/
theorem snoc (fits : Fits digits) (digit : c.isDigit = true)
    (bounded : Nat.ofDigitChars 10 (digits ++ [c]) 0 < bound) : Fits (digits ++ [c]) :=
  ⟨List.forall_mem_append.2 ⟨fits.allDigits, List.forall_mem_singleton.2 digit⟩, bounded⟩

theorem read_append (fits : Fits digits) (rest : List Char) :
    readDigits 0 (digits ++ rest) = readDigits (Nat.ofDigitChars 10 digits 0) rest :=
  readDigits_append fits.allDigits fits.bounded

end Fits

end Digits

/-! ## The sign -/

section Sign

variable {cs digits : List Char}

theorem unsigned_cons (some : digits ≠ []) : unsigned ('+' :: digits) = digits := by
  cases digits with
  | nil => exact absurd rfl some
  | cons => rfl

/-- Digits have no sign to lose. -/
theorem unsigned_of_digits (allDigits : ∀ c ∈ digits, c.isDigit = true) :
    unsigned digits = digits := by
  rw [unsigned.eq_2]
  rintro c rest rfl
  exact absurd (allDigits '+' List.mem_cons_self) (by decide)

theorem eq_or_eq_unsigned (cs : List Char) : cs = unsigned cs ∨ cs = '+' :: unsigned cs := by
  fun_cases unsigned cs with
  | case1 c rest => exact .inr rfl
  | case2 => exact .inl rfl

/-- A sign alone is not lost. -/
theorem unsigned_eq_nil (h : unsigned cs = []) : cs = [] := by
  rcases eq_or_eq_unsigned cs with bare | signed
  · rw [bare, h]
  · rw [h] at signed
    rw [signed] at h
    cases h

end Sign

/-! ## The reader and the judgement -/

variable {text : String} {outcome : Except Refusal Nat}

theorem ofString_eq_readDigits (some : unsigned text.toList ≠ []) :
    ofString text = readDigits 0 (unsigned text.toList) := by
  rw [ofString]
  split
  next nothing => exact absurd nothing some
  next => rfl

/-- What is left to read decides, where the digits before it are in order. -/
theorem judged_append {digits rest : List Char} (split : unsigned text.toList = digits ++ rest)
    (some : unsigned text.toList ≠ []) (fits : Fits digits) :
    Judged text (readDigits (Nat.ofDigitChars 10 digits 0) rest) := by
  induction rest generalizing digits with
  | nil =>
    rw [List.append_nil] at split
    exact .number (split ▸ eq_or_eq_unsigned text.toList) (split ▸ some) fits
  | cons c rest ih =>
    cases digit : c.isDigit with
    | false =>
      rw [readDigits_cons_of_wrong digit]
      exact .notADigit split fits digit
    | true =>
      rw [readDigits_cons digit, ← Nat.ofDigitChars_append]
      split_ifs with small
      · exact ih (by rw [split, List.append_assoc, List.singleton_append]) (fits.snoc digit small)
      · exact .tooLarge split fits digit (Nat.le_of_not_lt small)

theorem judged_ofString (text : String) : Judged text (ofString text) := by
  by_cases nothing : unsigned text.toList = []
  · rw [ofString, nothing]
    exact .empty (String.toList_eq_nil_iff.1 (unsigned_eq_nil nothing))
  · rw [ofString_eq_readDigits nothing]
    exact judged_append rfl nothing .nil

theorem Judged.ofString_eq (judged : Judged text outcome) : ofString text = outcome := by
  cases judged with
  | number signed some fits =>
    rename_i digits
    have unsigned_eq : unsigned text.toList = digits := by
      rcases signed with bare | signed
      · rw [bare, unsigned_of_digits fits.allDigits]
      · rw [signed, unsigned_cons some]
    have read := fits.read_append []
    rw [List.append_nil] at read
    rw [ofString_eq_readDigits (unsigned_eq ▸ some), unsigned_eq, read, readDigits]
  | empty nothing =>
    rw [nothing]
    rfl
  | notADigit split fits wrong =>
    rw [ofString_eq_readDigits (by simp [split]), split, fits.read_append,
      readDigits_cons_of_wrong wrong]
  | tooLarge split fits digit large =>
    rw [Nat.ofDigitChars_append] at large
    rw [ofString_eq_readDigits (by simp [split]), split, fits.read_append, readDigits_cons digit]
    exact if_neg (Nat.not_lt_of_le large)

/-- The reader answers exactly what comes of the text. -/
theorem ofString_eq_iff : ofString text = outcome ↔ Judged text outcome :=
  ⟨fun answer => answer ▸ judged_ofString text, Judged.ofString_eq⟩

end Sm83.Text.Count
