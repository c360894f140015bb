/- digest: Decimal numerals and the reading of an integer from the front of a text.
   uses: nothing of the modelled repository. -/

import Mathlib.Data.List.Basic
import Mathlib.Data.List.TakeWhile

set_option autoImplicit false
set_option relaxedAutoImplicit false

namespace Webengine.Library.Decimals

/-- The decimal digits of a number. -/
def decimal (n : Nat) : List Char := Nat.toDigits 10 n

/-- A number with its sign. -/
def integer : Int → List Char
  | .ofNat n => decimal n
  | .negSucc n => '-' :: decimal (n + 1)

/-- White space of the C locale. -/
def isSpace (c : Char) : Bool := c ∈ [' ', '\t', '\n', '\x0b', '\x0c', '\r']

/-- The value of the digits at the front of a text, if there is one. -/
def scanNat (s : List Char) : Option Nat :=
  let digits := s.takeWhile Char.isDigit
  if digits = [] then none else some (Nat.ofDigitChars 10 digits 0)

/-- The value of an optional sign and digits. -/
def scanSigned : List Char → Option Int
  | '-' :: s => (scanNat s).map fun n : Nat => -(n : Int)
  | '+' :: s => (scanNat s).map fun n : Nat => (n : Int)
  | s => (scanNat s).map fun n : Nat => (n : Int)

/-- White space, then a signed integer; what follows it is not looked at. -/
def scanInt (s : List Char) : Option Int := scanSigned (s.dropWhile isSpace)

theorem isDigit_of_mem_decimal {n : Nat} {c : Char} (h : c ∈ decimal n) : c.isDigit = true :=
  Nat.isDigit_of_mem_toDigits (by decide) (by decide) h

theorem decimal_ne_nil (n : Nat) : decimal n ≠ [] := Nat.toDigits_ne_nil

private theorem takeWhile_decimal_append (n : Nat) {rest : List Char}
    (ends : ∀ c ∈ rest.head?, c.isDigit = false) :
    (decimal n ++ rest).takeWhile Char.isDigit = decimal n := by
  rw [List.takeWhile_append_of_pos fun c hc => isDigit_of_mem_decimal hc]
  cases rest with
  | nil => simp
  | cons c rest =>
    have stop : ¬ c.isDigit = true := by simpa using ends c (by simp)
    rw [List.takeWhile_cons_of_neg stop, List.append_nil]

private theorem scanNat_digits_append {digits rest : List Char} (nonempty : digits ≠ [])
    (all : ∀ c ∈ digits, c.isDigit = true) (ends : ∀ c ∈ rest.head?, c.isDigit = false) :
    scanNat (digits ++ rest) = some (Nat.ofDigitChars 10 digits 0) := by
  have front : (digits ++ rest).takeWhile Char.isDigit = digits := by
    rw [List.takeWhile_append_of_pos all]
    cases rest with
    | nil => simp
    | cons c rest =>
      have stop : ¬ c.isDigit = true := by simpa using ends c (by simp)
      rw [List.takeWhile_cons_of_neg stop, List.append_nil]
  unfold scanNat
  rw [front, if_neg nonempty]

private theorem digits_of_scanNat {s : List Char} {n : Nat} (read : scanNat s = some n) :
    ∃ digits rest, s = digits ++ rest ∧ digits ≠ [] ∧ (∀ c ∈ digits, c.isDigit = true) ∧
      (∀ c ∈ rest.head?, c.isDigit = false) ∧ n = Nat.ofDigitChars 10 digits 0 := by
  refine ⟨s.takeWhile Char.isDigit, s.dropWhile Char.isDigit,
    List.takeWhile_append_dropWhile.symm, ?_⟩
  simp only [scanNat] at read
  split_ifs at read with none_
  refine ⟨none_, fun c hc => List.mem_takeWhile_imp hc, fun c hc => ?_,
    (Option.some.inj read).symm⟩
  cases rest : s.dropWhile Char.isDigit with
  | nil =>
    rw [rest] at hc
    cases hc
  | cons d rest' =>
    rw [rest] at hc
    obtain rfl := Option.some.inj hc
    have first := List.head_dropWhile_not Char.isDigit (l := s) (by rw [rest]; simp)
    simpa [rest] using first

/-- The text starts with this integer: blanks, a sign or none, and digits up to where they end. -/
def StartsWith (s : List Char) (n : Int) : Prop :=
  ∃ blanks sign digits rest, s = blanks ++ (sign ++ (digits ++ rest)) ∧
    (∀ c ∈ blanks, isSpace c = true) ∧ digits ≠ [] ∧ (∀ c ∈ digits, c.isDigit = true) ∧
    (∀ c ∈ rest.head?, c.isDigit = false) ∧
    (((sign = [] ∨ sign = ['+']) ∧ n = Nat.ofDigitChars 10 digits 0) ∨
      (sign = ['-'] ∧ n = -(Nat.ofDigitChars 10 digits 0 : Int)))

theorem scanNat_decimal_append (n : Nat) {rest : List Char}
    (ends : ∀ c ∈ rest.head?, c.isDigit = false) : scanNat (decimal n ++ rest) = some n := by
  rw [scanNat_digits_append (decimal_ne_nil n) (fun c hc => isDigit_of_mem_decimal hc) ends]
  exact congrArg some Nat.ofDigitChars_ten_toDigits

theorem dropWhile_decimal_append (n : Nat) {rest : List Char}
    (ends : ∀ c ∈ rest.head?, c.isDigit = false) :
    (decimal n ++ rest).dropWhile Char.isDigit = rest := by
  have split := List.takeWhile_append_dropWhile (p := Char.isDigit) (l := decimal n ++ rest)
  rw [takeWhile_decimal_append n ends] at split
  exact List.append_cancel_left split

private theorem isSpace_of_isDigit {c : Char} (h : c.isDigit = true) : isSpace c = false := by
  rw [Bool.eq_false_iff]
  intro space
  simp only [isSpace, List.mem_cons, List.not_mem_nil, or_false, decide_eq_true_eq] at space
  rcases space with rfl | rfl | rfl | rfl | rfl | rfl <;> exact absurd h (by decide)

private theorem dropWhile_blanks_append {blanks : List Char} (all : ∀ c ∈ blanks, isSpace c = true)
    {c : Char} (plain : isSpace c = false) (rest : List Char) :
    (blanks ++ c :: rest).dropWhile isSpace = c :: rest := by
  rw [List.dropWhile_append_of_pos all, List.dropWhile_cons_of_neg (by simp [plain])]

private theorem scanSigned_of_digit {c : Char} (digit : c.isDigit = true) (s : List Char) :
    scanSigned (c :: s) = (scanNat (c :: s)).map fun n : Nat => (n : Int) := by
  unfold scanSigned
  split
  · rename_i s' minus
    cases minus
    exact absurd digit (by decide)
  · rename_i s' plus
    cases plus
    exact absurd digit (by decide)
  · rfl

/-- An integer is read exactly from a text that starts with it. -/
theorem scanInt_eq_some_iff {s : List Char} {n : Int} : scanInt s = some n ↔ StartsWith s n := by
  constructor
  · intro read
    have blanks : ∀ c ∈ s.takeWhile isSpace, isSpace c = true := fun c hc =>
      List.mem_takeWhile_imp hc
    have whole : s = s.takeWhile isSpace ++ s.dropWhile isSpace :=
      List.takeWhile_append_dropWhile.symm
    unfold scanInt scanSigned at read
    split at read
    · rename_i s' minus
      obtain ⟨k, scanned, rfl⟩ := Option.map_eq_some_iff.mp read
      obtain ⟨digits, rest, rfl, nonempty, all, ends, rfl⟩ := digits_of_scanNat scanned
      rw [minus] at whole
      exact ⟨_, ['-'], digits, rest, whole, blanks, nonempty, all, ends, Or.inr ⟨rfl, rfl⟩⟩
    · rename_i s' plus
      obtain ⟨k, scanned, rfl⟩ := Option.map_eq_some_iff.mp read
      obtain ⟨digits, rest, rfl, nonempty, all, ends, rfl⟩ := digits_of_scanNat scanned
      rw [plus] at whole
      exact ⟨_, ['+'], digits, rest, whole, blanks, nonempty, all, ends,
        Or.inl ⟨Or.inr rfl, rfl⟩⟩
    · obtain ⟨k, scanned, rfl⟩ := Option.map_eq_some_iff.mp read
      obtain ⟨digits, rest, split, nonempty, all, ends, rfl⟩ := digits_of_scanNat scanned
      rw [split] at whole
      exact ⟨_, [], digits, rest, whole, blanks, nonempty, all, ends, Or.inl ⟨Or.inl rfl, rfl⟩⟩
  · rintro ⟨blanks, sign, digits, rest, rfl, spaces, nonempty, all, ends, signed⟩
    have scanned := scanNat_digits_append nonempty all ends
    obtain ⟨d, digits', rfl⟩ := List.exists_cons_of_ne_nil nonempty
    have digit : d.isDigit = true := all d List.mem_cons_self
    rcases signed with ⟨rfl | rfl, rfl⟩ | ⟨rfl, rfl⟩
    · rw [scanInt, List.nil_append, List.cons_append,
        dropWhile_blanks_append spaces (isSpace_of_isDigit digit), scanSigned_of_digit digit,
        ← List.cons_append, scanned]
      rfl
    · rw [scanInt, List.singleton_append, dropWhile_blanks_append spaces (by decide)]
      exact congrArg (Option.map fun n : Nat => (n : Int)) scanned
    · rw [scanInt, List.singleton_append, dropWhile_blanks_append spaces (by decide)]
      exact congrArg (Option.map fun n : Nat => -(n : Int)) scanned

theorem scanInt_decimal_append (n : Nat) {rest : List Char}
    (ends : ∀ c ∈ rest.head?, c.isDigit = false) :
    scanInt (decimal n ++ rest) = some (n : Int) := by
  rw [scanInt_eq_some_iff]
  refine ⟨[], [], decimal n, rest, rfl, by simp, decimal_ne_nil n,
    fun c hc => isDigit_of_mem_decimal hc, ends, Or.inl ⟨Or.inl rfl, ?_⟩⟩
  exact congrArg Nat.cast Nat.ofDigitChars_ten_toDigits.symm

end Webengine.Library.Decimals
