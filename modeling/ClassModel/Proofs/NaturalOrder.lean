import Mathlib.Algebra.Group.Nat.Defs
import ClassModel.Rnum

/-! # The natural order of relationship numbers

Relationship numbers are in a total order that tells any two texts apart. Behind the same letters, decimal
numerals come in the order of their values, however many digits and leading zeros they are written with,
and what is no numeral below 2^32 comes before all that are.
-/

namespace ClassModel

namespace Text

theorem isDigit_iff {c : Char} : c.isDigit = true ↔ '0' ≤ c ∧ c ≤ '9' := by
  rw [Char.isDigit, Bool.and_eq_true, decide_eq_true_iff, decide_eq_true_iff]
  rfl

theorem digitValue?_of_isDigit {c : Char} (digit : c.isDigit = true) :
    digitValue? c = some (c.toNat - '0'.toNat) :=
  if_pos (isDigit_iff.mp digit)

/-- A character with a value below ten is a decimal digit. -/
theorem isDigit_of_digitValue? {c : Char} {digit : Nat} (read : digitValue? c = some digit)
    (small : digit < 10) : c.isDigit = true := by
  unfold digitValue? at read
  split at read
  · exact isDigit_iff.mpr ‹_›
  · split at read
    · cases read
      omega
    · split at read
      · cases read
        omega
      · cases read

theorem toNat_sub_lt_of_isDigit {c : Char} (digit : c.isDigit = true) : c.toNat - '0'.toNat < 10 := by
  have bound : c.toNat ≤ '9'.toNat := (isDigit_iff.mp digit).2
  have nine : '9'.toNat = 57 := rfl
  have zero : '0'.toNat = 48 := rfl
  omega

/-- Decimal digits are read onto a value by their places, and nothing else is. -/
theorem digitsFrom?_ten_eq_some_iff {chars : List Char} {start value : Nat} :
    digitsFrom? 10 start chars = some value ↔
      (∀ c ∈ chars, c.isDigit = true) ∧ Nat.ofDigitChars 10 chars start = value := by
  induction chars generalizing start with
  | nil => simp [digitsFrom?]
  | cons c rest ih =>
    rw [List.forall_mem_cons, Nat.ofDigitChars_cons]
    by_cases digit : c.isDigit = true
    · simp only [digitsFrom?, digitValue?_of_isDigit digit, if_pos (toNat_sub_lt_of_isDigit digit), ih,
        digit, true_and, Nat.mul_comm]
    · have stops : digitsFrom? 10 start (c :: rest) = none := by
        unfold digitsFrom?
        split
        · rename_i read
          exact if_neg fun small => digit (isDigit_of_digitValue? read small)
        · rfl
      simp [stops, digit]

theorem natural?_ten_eq_some_iff {chars : List Char} {value : Nat} :
    natural? 10 chars = some value ↔
      chars ≠ [] ∧ (∀ c ∈ chars, c.isDigit = true) ∧ Nat.ofDigitChars 10 chars 0 = value := by
  unfold natural?
  split <;> simp_all [digitsFrom?_ten_eq_some_iff]

end Text

namespace Rnum

/-! ## Numerals -/

/-- A decimal numeral, one or more digits with or without a plus sign before them, and its value. -/
inductive Denotes : List Char → Nat → Prop
  | plain {digits : List Char} (written : digits ≠ []) (decimal : ∀ c ∈ digits, c.isDigit = true) :
    Denotes digits (Nat.ofDigitChars 10 digits 0)
  | signed {digits : List Char} (written : digits ≠ []) (decimal : ∀ c ∈ digits, c.isDigit = true) :
    Denotes ('+' :: digits) (Nat.ofDigitChars 10 digits 0)

theorem denotes_signed_iff {digits : List Char} {value : Nat} :
    Denotes ('+' :: digits) value ↔ Text.natural? 10 digits = some value := by
  rw [Text.natural?_ten_eq_some_iff]
  constructor
  · intro denotes
    cases denotes with
    | plain _ decimal => exact absurd (decimal '+' List.mem_cons_self) (by decide)
    | signed written decimal => exact ⟨written, decimal, rfl⟩
  · rintro ⟨written, decimal, rfl⟩
    exact .signed written decimal

theorem denotes_iff_of_unsigned {chars : List Char} {value : Nat} (unsigned : ∀ digits, chars ≠ '+' :: digits) :
    Denotes chars value ↔ Text.natural? 10 chars = some value := by
  rw [Text.natural?_ten_eq_some_iff]
  constructor
  · intro denotes
    cases denotes with
    | plain written decimal => exact ⟨written, decimal, rfl⟩
    | signed => exact absurd rfl (unsigned _)
  · rintro ⟨written, decimal, rfl⟩
    exact .plain written decimal

/-- The numerals that are read are those with a value below 2^32. -/
theorem numeralValue?_eq_some_iff {chars : List Char} {value : Nat} :
    numeralValue? chars = some value ↔ Denotes chars value ∧ value < 2 ^ 32 := by
  have bound : UInt32.size = 2 ^ 32 := rfl
  unfold numeralValue?
  split
  · simp only [Text.below?, Option.filter_eq_some_iff, decide_eq_true_eq, denotes_signed_iff, bound]
  · rename_i unsigned
    simp only [Text.below?, Option.filter_eq_some_iff, decide_eq_true_eq,
      denotes_iff_of_unsigned unsigned, bound]

theorem numeralValue?_eq_none_iff {chars : List Char} :
    numeralValue? chars = none ↔ ∀ value, Denotes chars value → 2 ^ 32 ≤ value := by
  rw [Option.eq_none_iff_forall_ne_some]
  simp only [ne_eq, numeralValue?_eq_some_iff, not_and, Nat.not_lt]

theorem isAlpha_of_isDigit {c : Char} (digit : c.isDigit = true) : c.isAlpha = false := by
  have bound : c.val ≤ '9'.val := (Text.isDigit_iff.mp digit).2
  have belowCapitals : ¬ 'A'.val ≤ c.val := fun above => absurd (UInt32.le_trans above bound) (by decide)
  have belowSmall : ¬ 'a'.val ≤ c.val := fun above => absurd (UInt32.le_trans above bound) (by decide)
  have notCapital : c.isUpper = false := decide_eq_false fun within => belowCapitals within.1
  have notSmall : c.isLower = false := Bool.and_eq_false_iff.mpr (.inl (decide_eq_false belowSmall))
  exact Bool.or_eq_false_iff.mpr ⟨notCapital, notSmall⟩

/-- A numeral does not start with a letter. -/
theorem Denotes.head_not_isAlpha {chars : List Char} {value : Nat} (denotes : Denotes chars value) :
    ∀ c ∈ chars.head?, c.isAlpha = false := by
  intro c first
  cases denotes with
  | plain _ decimal => exact isAlpha_of_isDigit (decimal c (List.mem_of_mem_head? first))
  | signed =>
    cases first
    rfl

/-! ## Letters -/

section Parts

variable {front back : String} (alpha : ∀ c ∈ front.toList, c.isAlpha = true)
  (ends : ∀ c ∈ back.toList.head?, c.isAlpha = false)

include alpha ends

/-- The letters at the start of a number are those in front of a text that starts with none. -/
theorem letters_append : (⟨front ++ back⟩ : Rnum).letters = front := by
  have stops : back.toList.takeWhile isLetter = [] := by
    cases chars : back.toList with
    | nil => rfl
    | cons c rest => exact List.takeWhile_cons_of_neg (by simp [isLetter, ends c (by simp [chars])])
  rw [letters, String.toList_append, List.takeWhile_append_of_pos (p := isLetter) alpha, stops,
    List.append_nil, String.ofList_toList]

theorem number?_append : (⟨front ++ back⟩ : Rnum).number? = numeralValue? back.toList := by
  have stays : back.toList.dropWhile isLetter = back.toList := by
    cases chars : back.toList with
    | nil => rfl
    | cons c rest => exact List.dropWhile_cons_of_neg (by simp [isLetter, ends c (by simp [chars])])
  rw [number?, numeral, String.toList_append, List.dropWhile_append_of_pos (p := isLetter) alpha, stays]

end Parts

/-! ## The order -/

/-- Behind the same letters, the numbers decide if they differ. -/
theorem compare_eq_lt_of_number? {left right : Rnum} (same : left.letters = right.letters)
    (less : compare left.number? right.number? = .lt) : compare left right = .lt := by
  rw [compare_eq_then, same, Std.ReflOrd.compare_self, less]
  rfl

/-- Two texts behind the same letters come in the order of what is read of them. -/
theorem compare_append_eq_lt {letters left right : String} (alpha : ∀ c ∈ letters.toList, c.isAlpha = true)
    (leftEnds : ∀ c ∈ left.toList.head?, c.isAlpha = false)
    (rightEnds : ∀ c ∈ right.toList.head?, c.isAlpha = false)
    (less : compare (numeralValue? left.toList) (numeralValue? right.toList) = .lt) :
    compare (⟨letters ++ left⟩ : Rnum) ⟨letters ++ right⟩ = .lt := by
  apply compare_eq_lt_of_number?
  · rw [letters_append alpha leftEnds, letters_append alpha rightEnds]
  · rwa [number?_append alpha leftEnds, number?_append alpha rightEnds]

/-- The order of relationship numbers is total and equates no two texts, and it is natural: behind the same
letters, numerals below 2^32 come in the order of their values, and other texts before all of them. -/
theorem natural_order :
    (∀ rnum : Rnum, compare rnum rnum = .eq) ∧
    (∀ first second : Rnum, compare second first = (compare first second).swap) ∧
    (∀ first second : Rnum, (compare first second).isLE = true → (compare second first).isLE = true →
      first = second) ∧
    (∀ first second third : Rnum, (compare first second).isLE = true →
      (compare second third).isLE = true → (compare first third).isLE = true) ∧
    (∀ first second : Rnum, compare first second = .eq ↔ first.text = second.text) ∧
    ∀ letters : String, (∀ c ∈ letters.toList, c.isAlpha = true) →
      (∀ (less more : String) (lesser greater : Nat), Denotes less.toList lesser →
        Denotes more.toList greater → lesser < greater → greater < 2 ^ 32 →
        compare (⟨letters ++ less⟩ : Rnum) ⟨letters ++ more⟩ = .lt) ∧
      ∀ (other numeral : String) (value : Nat), (∀ c ∈ other.toList.head?, c.isAlpha = false) →
        (∀ large, Denotes other.toList large → 2 ^ 32 ≤ large) →
        Denotes numeral.toList value → value < 2 ^ 32 →
        compare (⟨letters ++ other⟩ : Rnum) ⟨letters ++ numeral⟩ = .lt := by
  refine ⟨fun _ => Std.ReflOrd.compare_self, fun _ _ => Std.OrientedOrd.eq_swap,
    fun _ _ below above => compare_eq_iff.mp (Std.OrientedCmp.isLE_antisymm below above),
    fun _ _ _ => Std.TransOrd.isLE_trans, ?same, fun letters alpha => ⟨?numerals, ?others⟩⟩
  case same =>
    intro first second
    rw [compare_eq_iff, Rnum.mk.injEq]
  case numerals =>
    intro less more lesser greater lessDenotes moreDenotes smaller bound
    apply compare_append_eq_lt alpha lessDenotes.head_not_isAlpha moreDenotes.head_not_isAlpha
    rw [numeralValue?_eq_some_iff.mpr ⟨lessDenotes, Nat.lt_trans smaller bound⟩,
      numeralValue?_eq_some_iff.mpr ⟨moreDenotes, bound⟩]
    exact Nat.compare_eq_lt.mpr smaller
  case others =>
    intro other numeral value ends large denotes bound
    apply compare_append_eq_lt alpha ends denotes.head_not_isAlpha
    rw [numeralValue?_eq_none_iff.mpr large, numeralValue?_eq_some_iff.mpr ⟨denotes, bound⟩]
    rfl

/-- Two comes before ten with more digits before it, and letters alone before zero. -/
theorem natural_order_paddedTwo : compare (⟨"R" ++ "0002"⟩ : Rnum) ⟨"R" ++ "10"⟩ = .lt ∧
    compare (⟨"R" ++ ""⟩ : Rnum) ⟨"R" ++ "0"⟩ = .lt := by
  have two : Denotes "0002".toList 2 := (numeralValue?_eq_some_iff.mp rfl).1
  have ten : Denotes "10".toList 10 := (numeralValue?_eq_some_iff.mp rfl).1
  have zero : Denotes "0".toList 0 := (numeralValue?_eq_some_iff.mp rfl).1
  obtain ⟨_, _, _, _, _, behind⟩ := natural_order
  obtain ⟨numerals, others⟩ := behind "R" (List.all_eq_true.mp rfl)
  refine ⟨numerals "0002" "10" 2 10 two ten (by decide) (by decide), others "" "0" 0 ?_ ?_ zero (by decide)⟩
  · simp
  · exact numeralValue?_eq_none_iff.mp rfl

end Rnum

end ClassModel
