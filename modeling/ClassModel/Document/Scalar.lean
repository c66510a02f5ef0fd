import ClassModel.Text.Numeral

/-! # Plain scalars

What an unquoted scalar of a YAML document stands for where nothing is expected of it: nothing, a
truth value, a number, or else its own text. The same rules say which texts have to be quoted.
-/

namespace ClassModel.Document

open Text

/-- What a plain scalar stands for. -/
inductive Scalar where
  | null
  | bool (value : Bool)
  /-- A natural number below 2^64. -/
  | natural (value : Nat)
  /-- Any other number. -/
  | number
  /-- A whole number that needs more than 64 bits but no more than 128. -/
  | wide
  | text
  deriving DecidableEq, Repr

namespace Scalar

/-- The spellings of nothing. -/
def isNull (plain : String) : Bool := plain ∈ ["", "~", "null", "Null", "NULL"]

def bool? (plain : String) : Option Bool :=
  if plain ∈ ["true", "True", "TRUE"] then some true
  else if plain ∈ ["false", "False", "FALSE"] then some false
  else none

/-- Whether a text is digits behind a leading zero, which are no number. -/
def isZeroPadded (chars : List Char) : Bool :=
  let unsigned := match chars with
    | '-' :: rest => rest
    | '+' :: rest => rest
    | _ => chars
  match unsigned with
  | '0' :: digit :: rest => (digit :: rest).all fun c => '0' ≤ c && c ≤ '9'
  | _ => false

/-- A whole number without sign: hexadecimal, octal and binary by their marks, else decimal. -/
def magnitude? (chars : List Char) : Option Nat :=
  let marked := match chars with
    | '0' :: 'x' :: digits => natural? 16 digits
    | '0' :: 'o' :: digits => natural? 8 digits
    | '0' :: 'b' :: digits => natural? 2 digits
    | _ => none
  marked <|> (if isZeroPadded chars then none else natural? 10 chars)

/-- A whole number that is not negative; it may have a plus sign. -/
def unsigned? : List Char → Option Nat
  | '+' :: rest => magnitude? rest
  | chars => magnitude? chars

/-- The absolute value of a number with a minus sign. -/
def negative? : List Char → Option Nat
  | '-' :: rest => magnitude? rest
  | _ => none

/-- An exponent with its sign; without the letter it is zero. -/
def exponent? : List Char → Option Int
  | [] => some 0
  | c :: rest =>
    if c = 'e' ∨ c = 'E' then
      match rest with
      | '-' :: digits => (natural? 10 digits).map fun value => -(value : Int)
      | '+' :: digits => (natural? 10 digits).map Int.ofNat
      | digits => (natural? 10 digits).map Int.ofNat
    else none

/-- A decimal number without sign: digits, of which some may stand behind a point, and an
exponent. -/
def decimal? (chars : List Char) : Option Decimal :=
  let (whole, rest) := spanDigits chars
  let (fraction, rest) := match rest with
    | '.' :: behind => spanDigits behind
    | _ => ([], rest)
  if whole.isEmpty && fraction.isEmpty then none
  else
    (exponent? rest).map fun exponent =>
      ⟨digitsValue (whole ++ fraction), exponent - fraction.length⟩

/-- Whether a text is a floating-point number; one too large for it is none, but there are words
for infinity and for no number. -/
def isFloat (plain : String) : Bool :=
  let unsigned := match plain.toList with
    | '+' :: rest => rest
    | '-' :: rest => rest
    | chars => chars
  plain ∈ [".inf", ".Inf", ".INF", "+.inf", "+.Inf", "+.INF", "-.inf", "-.Inf", "-.INF", ".nan",
      ".NaN", ".NAN"] ||
    (decimal? unsigned).any (·.isFinite)

/-- The number that a text is, if it is one. -/
def number? (plain : String) : Option Scalar :=
  match unsigned? plain.toList, negative? plain.toList with
  | some value, _ =>
    if value < UInt64.size then some (.natural value)
    else if value < Nat.pow 2 128 then some .wide
    else if isFloat plain then some .number else none
  | none, some value =>
    if value ≤ Nat.pow 2 63 then some .number
    else if value ≤ Nat.pow 2 127 then some .wide
    else if isFloat plain then some .number else none
  | none, none =>
    if !isZeroPadded plain.toList && isFloat plain then some .number else none

/-- What a plain scalar stands for. -/
def ofPlain (plain : String) : Scalar :=
  if isNull plain then .null
  else
    match bool? plain with
    | some value => .bool value
    | none => (number? plain).getD .text

end Scalar

end ClassModel.Document
