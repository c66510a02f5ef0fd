import ClassModel.Document.Value

/-! # JSON text of a value

Objects and arrays have each entry on a line of its own, two spaces deeper than the line they
start on; empty ones are written together. An alternative is an object with the tag as its key.
-/

namespace ClassModel.Document.Json

/-- A digit of a hexadecimal number in lower case. -/
def hexDigit (digit : Nat) : Char :=
  if digit < 10 then Char.ofNat ('0'.toNat + digit) else Char.ofNat ('a'.toNat + digit - 10)

/-- A character as it stands in a string: quotation marks, backslashes and control characters are
escaped, by a letter where there is one. -/
def escape (c : Char) : List Char :=
  if c = '"' then ['\\', '"']
  else if c = '\\' then ['\\', '\\']
  else if c = '\n' then ['\\', 'n']
  else if c = '\r' then ['\\', 'r']
  else if c = '\t' then ['\\', 't']
  else if c = '\x08' then ['\\', 'b']
  else if c = '\x0c' then ['\\', 'f']
  else if c.toNat < 32 then
    ['\\', 'u', '0', '0', hexDigit (c.toNat / 16), hexDigit (c.toNat % 16)]
  else [c]

/-- A text between quotation marks. -/
def quote (text : String) : List Char := '"' :: (text.toList.flatMap escape ++ ['"'])

/-- The start of a line at a depth. -/
def newline (depth : Nat) : List Char := '\n' :: List.replicate (2 * depth) ' '

mutual

/-- A value whose entries stand one level deeper than the given depth. -/
def render (depth : Nat) : Value → List Char
  | .null => "null".toList
  | .bool true => "true".toList
  | .bool false => "false".toList
  | .natural value => Nat.toDigits 10 value
  | .text value => quote value
  | .list [] => "[]".toList
  | .list (item :: items) =>
    '[' :: (newline (depth + 1) ++ render (depth + 1) item ++ renderItems (depth + 1) items ++
      newline depth ++ [']'])
  | .record [] => ['\x7b', '\x7d']
  | .record ((name, value) :: fields) =>
    '\x7b' :: (newline (depth + 1) ++ quote name ++ ": ".toList ++ render (depth + 1) value ++
      renderFields (depth + 1) fields ++ newline depth ++ ['\x7d'])
  | .choice tag content =>
    '\x7b' :: (newline (depth + 1) ++ quote tag ++ ": ".toList ++ render (depth + 1) content ++
      newline depth ++ ['\x7d'])

/-- Further items of an array. -/
def renderItems (depth : Nat) : List Value → List Char
  | [] => []
  | item :: items => ',' :: (newline depth ++ render depth item ++ renderItems depth items)

/-- Further entries of an object. -/
def renderFields (depth : Nat) : List (String × Value) → List Char
  | [] => []
  | (name, value) :: fields =>
    ',' :: (newline depth ++ quote name ++ ": ".toList ++ render depth value ++
      renderFields depth fields)

end

/-- The text of a value. -/
def print (value : Value) : String := String.ofList (render 0 value)

end ClassModel.Document.Json
