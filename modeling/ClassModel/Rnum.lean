import ClassModel.Text.Numeral

/-! # Relationship numbers

A relationship number is a text such as `R12`, or `O3` for an ordinal relationship. Numbers are
ordered naturally: by their letters, then by the number behind them, and last by the whole text,
so that two numbers compare as equal only if they are the same text (`compare_eq_iff`).
-/

namespace ClassModel

/-- A relationship number by its text. -/
structure Rnum where
  text : String
  deriving DecidableEq, Repr, Inhabited

namespace Rnum

/-- Ordinal relationships have a number that starts with the letter O. -/
def isOrdinal (rnum : Rnum) : Bool := rnum.text.toList.head? == some 'O'

def isLetter (c : Char) : Bool := c.isAlpha

/-- The ASCII letters at the start. -/
def letters (rnum : Rnum) : String := String.ofList (rnum.text.toList.takeWhile isLetter)

/-- What stands behind the letters. -/
def numeral (rnum : Rnum) : List Char := rnum.text.toList.dropWhile isLetter

/-- A decimal numeral below 2^32, with an optional plus sign. -/
def numeralValue? : List Char → Option Nat
  | '+' :: digits => Text.below? UInt32.size (Text.natural? 10 digits)
  | digits => Text.below? UInt32.size (Text.natural? 10 digits)

/-- The number behind the letters, if it is well formed. -/
def number? (rnum : Rnum) : Option Nat := numeralValue? rnum.numeral

/-- Natural order: letters, then number with none before any, then text. -/
instance : Ord Rnum where
  compare := compareLex (compareOn letters) (compareLex (compareOn number?) (compareOn text))

/-- Whether one number comes strictly before another. -/
def before (left right : Rnum) : Bool := compare left right == .lt

instance : Std.TransOrd Rnum :=
  inferInstanceAs (Std.TransCmp (compareLex (compareOn letters)
    (compareLex (compareOn number?) (compareOn text))))

theorem compare_eq_then (left right : Rnum) : compare left right = (compare left.letters right.letters).then
    ((compare left.number? right.number?).then (compare left.text right.text)) := by
  change compareLex (compareOn letters) (compareLex (compareOn number?) (compareOn text)) left right = _
  simp only [compareLex, compareOn]

/-- Numbers compare as equal only if they are the same text. -/
theorem compare_eq_iff {left right : Rnum} : compare left right = .eq ↔ left = right := by
  constructor
  · intro equal
    rw [compare_eq_then, Ordering.then_eq_eq, Ordering.then_eq_eq] at equal
    have same : left.text = right.text := Std.LawfulEqOrd.eq_of_compare equal.2.2
    cases left
    cases right
    cases same
    rfl
  · rintro rfl
    exact Std.ReflCmp.compare_self

end Rnum

end ClassModel
