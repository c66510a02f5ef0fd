/-! # Numerals

The value of a run of digits in a base up to sixteen; only ASCII digits and letters count. And a
decimal numeral as a whole number times a power of ten. Floating-point numbers of 64 bits hold
only those that round to something below 2^1024.
-/

namespace ClassModel.Text

/-! ## Digits -/

/-- The value of one digit, letters of either case standing for ten to fifteen. -/
def digitValue? (c : Char) : Option Nat :=
  if '0' ≤ c ∧ c ≤ '9' then some (c.toNat - '0'.toNat)
  else if 'a' ≤ c ∧ c ≤ 'f' then some (c.toNat - 'a'.toNat + 10)
  else if 'A' ≤ c ∧ c ≤ 'F' then some (c.toNat - 'A'.toNat + 10)
  else none

/-- Reads further digits onto a value; fails at a character that is no digit of the base. -/
def digitsFrom? (base : Nat) (value : Nat) : List Char → Option Nat
  | [] => some value
  | c :: rest =>
    match digitValue? c with
    | some digit => if digit < base then digitsFrom? base (value * base + digit) rest else none
    | none => none

/-- The value of a text of one or more digits and nothing else. -/
def natural? (base : Nat) (chars : List Char) : Option Nat :=
  if chars.isEmpty then none else digitsFrom? base 0 chars

/-- The value if it is below a bound. -/
def below? (bound : Nat) (value : Option Nat) : Option Nat :=
  value.filter (· < bound)

/-! ## Decimals -/

/-- The number `significand` · 10^`exponent`. -/
structure Decimal where
  significand : Nat
  exponent : Int
  deriving DecidableEq, Repr

namespace Decimal

/-- The least number that rounds to more than the largest floating-point number. -/
def overflowBound : Nat := Nat.pow 2 1024 - Nat.pow 2 970

/-- How many decimal digits a number has. -/
def digitCount (n : Nat) : Nat := (Nat.toDigits 10 n).length

/-- Whether the number rounds to a finite floating-point number. Exponents far out of range are
told by the number of digits alone. -/
def isFinite (decimal : Decimal) : Bool :=
  if decimal.significand = 0 then true
  else if 400 < decimal.exponent then false
  else if (0 : Int) ≤ decimal.exponent then
    decimal.significand * Nat.pow 10 decimal.exponent.toNat < overflowBound
  else if (digitCount decimal.significand : Int) + decimal.exponent < 300 then true
  else decimal.significand < overflowBound * Nat.pow 10 (-decimal.exponent).toNat

end Decimal

/-- The digits at the start of a text, and what follows them. -/
def spanDigits (chars : List Char) : List Char × List Char :=
  chars.span fun c => '0' ≤ c && c ≤ '9'

/-- The value of decimal digits; the empty list counts as zero. -/
def digitsValue (digits : List Char) : Nat := (digitsFrom? 10 0 digits).getD 0

end ClassModel.Text
