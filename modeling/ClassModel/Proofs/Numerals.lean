import ClassModel.Document.Json.Printer
import ClassModel.Document.Scalar
import ClassModel.Document.Yaml.Printer
import Mathlib.Algebra.Group.Nat.Defs
import Mathlib.Data.List.TakeDrop

/-! # Numerals are read back

The decimal digits of a number and the hexadecimal digits of a character code, written and read. Two
writers of hexadecimal digits differ in the case of the letters, and the reader takes both.
-/

namespace ClassModel.Text

/-- Digits are read from left to right. -/
theorem digitsFrom?_append (base value : Nat) (front back : List Char) :
    digitsFrom? base value (front ++ back) =
      (digitsFrom? base value front).bind (digitsFrom? base · back) := by
  induction front generalizing value with
  | nil => rfl
  | cons c rest ih =>
    simp only [List.cons_append, digitsFrom?]
    split
    · split
      · exact ih _
      · rfl
    · rfl

/-- One digit read onto a value. -/
theorem digitsFrom?_singleton (base value : Nat) {digit : Nat} {c : Char}
    (read : digitValue? c = some digit) (small : digit < base) :
    digitsFrom? base value [c] = some (value * base + digit) := by
  simp [digitsFrom?, read, small]

/-! ## Decimal digits -/

theorem digitValue?_digitChar {digit : Nat} (small : digit < 16) :
    digitValue? digit.digitChar = some digit := by
  have all : ∀ digit ∈ List.range 16, digitValue? digit.digitChar = some digit := by decide
  exact all digit (List.mem_range.mpr small)

theorem digitsFrom?_toDigits (n : Nat) : digitsFrom? 10 0 (Nat.toDigits 10 n) = some n := by
  induction n using Nat.strongRecOn with
  | _ n ih =>
    rw [Nat.toDigits_eq_if (by omega)]
    split
    · rename_i small
      simpa using digitsFrom?_singleton 10 0 (digitValue?_digitChar (by omega)) small
    · rename_i large
      rw [digitsFrom?_append, ih (n / 10) (by omega), Option.bind_some,
        digitsFrom?_singleton _ _ (digitValue?_digitChar (by omega)) (Nat.mod_lt n (by omega)),
        Nat.div_add_mod' n 10]

theorem natural?_toDigits (n : Nat) : natural? 10 (Nat.toDigits 10 n) = some n := by
  simp [natural?, Nat.toDigits_ne_nil, digitsFrom?_toDigits]

theorem digitsValue_toDigits (n : Nat) : digitsValue (Nat.toDigits 10 n) = n := by
  simp [digitsValue, digitsFrom?_toDigits]

/-- The digits of a number are characters from zero to nine. -/
theorem digit_of_mem_toDigits {n : Nat} {c : Char} (written : c ∈ Nat.toDigits 10 n) :
    '0' ≤ c ∧ c ≤ '9' := by
  have digit := Nat.isDigit_of_mem_toDigits (by decide) (by decide) written
  simp only [Char.isDigit, Bool.and_eq_true, decide_eq_true_eq] at digit
  exact digit

/-- A number does not start with zero unless it is zero. -/
theorem toDigits_eq_zero_of_head {n : Nat} {rest : List Char} (starts : Nat.toDigits 10 n = '0' :: rest) :
    rest = [] := by
  induction n using Nat.strongRecOn generalizing rest with
  | _ n ih =>
    rw [Nat.toDigits_eq_if (by omega)] at starts
    split at starts
    · exact (List.cons.inj starts).2.symm
    · rename_i large
      cases front : Nat.toDigits 10 (n / 10) with
      | nil => exact absurd front Nat.toDigits_ne_nil
      | cons c others =>
        rw [front, List.cons_append] at starts
        obtain ⟨rfl, -⟩ := List.cons.inj starts
        -- a leading zero further up would make the front zero
        have alone := ih (n / 10) (by omega) front
        have zero : digitsFrom? 10 0 (Nat.toDigits 10 (n / 10)) = some 0 := by
          rw [front, alone]
          rfl
        rw [digitsFrom?_toDigits, Option.some.injEq] at zero
        omega

/-- The digits of a number have no mark of another base before them, and no zero. -/
theorem magnitude?_toDigits (n : Nat) : Document.Scalar.magnitude? (Nat.toDigits 10 n) = some n := by
  have value := natural?_toDigits n
  cases written : Nat.toDigits 10 n with
  | nil => exact absurd written Nat.toDigits_ne_nil
  | cons c rest =>
    have digit : '0' ≤ c ∧ c ≤ '9' := digit_of_mem_toDigits (written ▸ List.mem_cons_self)
    have unsigned : c ≠ '-' ∧ c ≠ '+' := by
      constructor <;> rintro rfl <;> exact absurd digit (by decide)
    by_cases zero : c = '0'
    · subst zero
      obtain rfl := toDigits_eq_zero_of_head written
      rw [written] at value
      simpa [Document.Scalar.magnitude?, Document.Scalar.isZeroPadded] using value
    · rw [written] at value
      simp [Document.Scalar.magnitude?, Document.Scalar.isZeroPadded, zero, unsigned, value]

theorem unsigned?_toDigits (n : Nat) : Document.Scalar.unsigned? (Nat.toDigits 10 n) = some n := by
  have value := magnitude?_toDigits n
  unfold Document.Scalar.unsigned?
  split
  · rename_i rest written
    have digit := digit_of_mem_toDigits (written.symm ▸ List.mem_cons_self : '+' ∈ Nat.toDigits 10 n)
    exact absurd digit (by decide)
  · exact value

theorem spanDigits_append {digits rest : List Char} (all : ∀ c ∈ digits, '0' ≤ c ∧ c ≤ '9')
    (ends : ∀ c ∈ rest.head?, ¬('0' ≤ c ∧ c ≤ '9')) : spanDigits (digits ++ rest) = (digits, rest) := by
  rw [spanDigits, List.span_eq_takeWhile_dropWhile]
  have taken : ∀ c ∈ digits, (decide ('0' ≤ c) && decide (c ≤ '9')) = true := by simpa using all
  rw [List.takeWhile_append_of_pos taken, List.dropWhile_append_of_pos taken]
  cases rest with
  | nil => simp
  | cons c rest =>
    have stops : (decide ('0' ≤ c) && decide (c ≤ '9')) = false := by
      simpa using ends c rfl
    simp [stops]

/-! ## Hexadecimal digits -/

theorem digitValue?_lowerHexDigit {digit : Nat} (small : digit < 16) :
    digitValue? (Document.Json.hexDigit digit) = some digit := by
  have all : ∀ digit ∈ List.range 16, digitValue? (Document.Json.hexDigit digit) = some digit := by
    decide
  exact all digit (List.mem_range.mpr small)

theorem digitValue?_upperHexDigit {digit : Nat} (small : digit < 16) :
    digitValue? (Document.Yaml.hexDigit digit) = some digit := by
  have all : ∀ digit ∈ List.range 16, digitValue? (Document.Yaml.hexDigit digit) = some digit := by
    decide
  exact all digit (List.mem_range.mpr small)

theorem length_hexDigits (count code : Nat) : (Document.Yaml.hexDigits count code).length = count := by
  induction count generalizing code with
  | zero => rfl
  | succ count ih => simp [Document.Yaml.hexDigits, ih]

theorem digitsFrom?_hexDigits {count code : Nat} (fits : code < 16 ^ count) :
    digitsFrom? 16 0 (Document.Yaml.hexDigits count code) = some code := by
  induction count generalizing code with
  | zero =>
    obtain rfl : code = 0 := by simpa using fits
    rfl
  | succ count ih =>
    have front : code / 16 < 16 ^ count := by
      rw [Nat.pow_succ] at fits
      omega
    rw [Document.Yaml.hexDigits, digitsFrom?_append, ih front, Option.bind_some,
      digitsFrom?_singleton _ _ (digitValue?_upperHexDigit (Nat.mod_lt code (by omega)))
        (Nat.mod_lt code (by omega)), Nat.div_add_mod' code 16]

theorem natural?_hexDigits {count code : Nat} (positive : 0 < count) (fits : code < 16 ^ count) :
    natural? 16 (Document.Yaml.hexDigits count code) = some code := by
  have written : Document.Yaml.hexDigits count code ≠ [] := by
    rw [← List.length_pos_iff, length_hexDigits]
    exact positive
  simp [natural?, written, digitsFrom?_hexDigits fits]

end ClassModel.Text
