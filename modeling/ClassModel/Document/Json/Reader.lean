import ClassModel.Document.Tree

/-! # Reading JSON

A text that is one JSON value by the strict grammar. Two things are well formed and still mean
nothing: a string with half of a surrogate pair, and a number too large for a floating-point
number. Values nested deeper than 127 levels mean nothing either.
-/

namespace ClassModel.Document.Json

open Text

def isBlank (c : Char) : Bool := c = ' ' || c = '\n' || c = '\r' || c = '\t'

def skipBlanks (chars : List Char) : List Char := chars.dropWhile isBlank

/-- A part of a string: a character, or a code unit of 16 bits. -/
inductive Piece where
  | char (c : Char)
  | unit (code : Nat)
  deriving DecidableEq, Repr

/-- What a letter behind a backslash stands for. -/
def unescape? (c : Char) : Option Char :=
  if c = '"' ∨ c = '\\' ∨ c = '/' then some c
  else if c = 'b' then some '\x08'
  else if c = 'f' then some '\x0c'
  else if c = 'n' then some '\n'
  else if c = 'r' then some '\r'
  else if c = 't' then some '\t'
  else none

/-- Reads a string behind its opening quotation mark. -/
def pieces? : List Char → Option (List Piece × List Char)
  | [] => none
  | '"' :: rest => some ([], rest)
  | '\\' :: 'u' :: a :: b :: c :: d :: rest => do
    let code ← natural? 16 [a, b, c, d]
    let (others, rest) ← pieces? rest
    some (.unit code :: others, rest)
  | '\\' :: letter :: rest => do
    let c ← unescape? letter
    let (others, rest) ← pieces? rest
    some (.char c :: others, rest)
  | c :: rest =>
    if c = '\\' ∨ c.toNat < 32 then none
    else do
      let (others, rest) ← pieces? rest
      some (.char c :: others, rest)

def isHighSurrogate (code : Nat) : Bool := 0xD800 ≤ code && code < 0xDC00

def isLowSurrogate (code : Nat) : Bool := 0xDC00 ≤ code && code < 0xE000

/-- The characters of a string; fails at half of a surrogate pair. -/
def joinPieces? : List Piece → Option (List Char)
  | [] => some []
  | .char c :: rest => (joinPieces? rest).map (c :: ·)
  | .unit high :: .unit low :: rest =>
    if isHighSurrogate high then
      if isLowSurrogate low then
        (joinPieces? rest).map
          (Char.ofNat (0x10000 + (high - 0xD800) * 0x400 + (low - 0xDC00)) :: ·)
      else none
    else if isLowSurrogate high then none
    else (joinPieces? (.unit low :: rest)).map (Char.ofNat high :: ·)
  | .unit code :: rest =>
    if isHighSurrogate code || isLowSurrogate code then none
    else (joinPieces? rest).map (Char.ofNat code :: ·)

/-- The tree of a string. -/
def stringTree (pieces : List Piece) : Tree :=
  match joinPieces? pieces with
  | some chars => .text (String.ofList chars)
  | none => .invalid

/-- Reads the whole part of a number: zero alone, or digits that do not start with zero. -/
def whole? (chars : List Char) : Option (List Char × List Char) :=
  match spanDigits chars with
  | ([], _) => none
  | ('0' :: digits, rest) => if digits.isEmpty then some (['0'], rest) else none
  | (digits, rest) => some (digits, rest)

/-- Reads the digits behind the point of a number, if it has one. -/
def fraction? : List Char → Option (Option (List Char) × List Char)
  | '.' :: rest =>
    match spanDigits rest with
    | ([], _) => none
    | (digits, rest) => some (some digits, rest)
  | chars => some (none, chars)

/-- Reads the exponent of a number, if it has one. -/
def exponent? : List Char → Option (Option Int × List Char)
  | [] => some (none, [])
  | c :: rest =>
    if c = 'e' ∨ c = 'E' then
      let (negative, digits) := match rest with
        | '-' :: digits => (true, digits)
        | '+' :: digits => (false, digits)
        | digits => (false, digits)
      match spanDigits digits with
      | ([], _) => none
      | (digits, rest) =>
        let value : Int := digitsValue digits
        some (some (if negative then -value else value), rest)
    else some (none, c :: rest)

/-- The tree of a number by its parts. -/
def numberTree (negative : Bool) (whole : List Char) (fraction : Option (List Char))
    (exponent : Option Int) : Tree :=
  let significand := digitsValue (whole ++ fraction.getD [])
  if !negative && fraction.isNone && exponent.isNone && significand < UInt64.size then
    .natural significand
  else if Decimal.isFinite ⟨significand, exponent.getD 0 - (fraction.getD []).length⟩ then .number
  else .invalid

def number? (chars : List Char) : Option (Tree × List Char) := do
  let (negative, chars) := match chars with
    | '-' :: rest => (true, rest)
    | _ => (false, chars)
  let (whole, chars) ← whole? chars
  let (fraction, chars) ← fraction? chars
  let (exponent, chars) ← exponent? chars
  some (numberTree negative whole fraction exponent, chars)

mutual

def value? : Nat → List Char → Option (Tree × List Char)
  | 0, _ => none
  | fuel + 1, chars =>
    match skipBlanks chars with
    | 'n' :: 'u' :: 'l' :: 'l' :: rest => some (.null, rest)
    | 't' :: 'r' :: 'u' :: 'e' :: rest => some (.bool true, rest)
    | 'f' :: 'a' :: 'l' :: 's' :: 'e' :: rest => some (.bool false, rest)
    | '"' :: rest => (pieces? rest).map fun (pieces, rest) => (stringTree pieces, rest)
    | '[' :: rest =>
      match skipBlanks rest with
      | ']' :: rest => some (.list [], rest)
      | rest => (items? fuel rest).map fun (items, rest) => (.list items, rest)
    | '\x7b' :: rest =>
      match skipBlanks rest with
      | '\x7d' :: rest => some (.map [], rest)
      | rest => (entries? fuel rest).map fun (entries, rest) => (.map entries, rest)
    | chars => number? chars

/-- Reads one or more items up to the closing bracket. -/
def items? : Nat → List Char → Option (List Tree × List Char)
  | 0, _ => none
  | fuel + 1, chars => do
    let (item, rest) ← value? fuel chars
    match skipBlanks rest with
    | ',' :: rest => do
      let (items, rest) ← items? fuel rest
      some (item :: items, rest)
    | ']' :: rest => some ([item], rest)
    | _ => none

/-- Reads one or more entries up to the closing brace. -/
def entries? : Nat → List Char → Option (List (Tree × Tree) × List Char)
  | 0, _ => none
  | fuel + 1, chars =>
    match skipBlanks chars with
    | '"' :: rest => do
      let (key, rest) ← pieces? rest
      match skipBlanks rest with
      | ':' :: rest => do
        let (value, rest) ← value? fuel rest
        match skipBlanks rest with
        | ',' :: rest => do
          let (entries, rest) ← entries? fuel rest
          some ((stringTree key, value) :: entries, rest)
        | '\x7d' :: rest => some ([(stringTree key, value)], rest)
        | _ => none
      | _ => none
    | _ => none

end

/-- How many levels of objects and arrays mean something. -/
def depthLimit : Nat := 127

/-- The tree of a text that is one value between blanks. -/
def read? (text : String) : Option Tree :=
  let chars := text.toList
  match value? (2 * chars.length + 2) chars with
  | some (tree, rest) => if (skipBlanks rest).isEmpty then some (tree.within depthLimit) else none
  | none => none

end ClassModel.Document.Json
