import ClassModel.Document.Value
import ClassModel.Document.Yaml.Style

/-! # YAML text of a value

Tables and lists are written in block style, two spaces per level; a list below a key stands at the
depth of the key. What follows the mark of a list item starts on the line of the mark. A key of
several lines or of more than 128 bytes has marks of its own before it and before its value.
-/

namespace ClassModel.Document.Yaml

/-! ## Scalars -/

/-- A digit of a hexadecimal number in upper case. -/
def hexDigit (digit : Nat) : Char :=
  if digit < 10 then Char.ofNat ('0'.toNat + digit) else Char.ofNat ('A'.toNat + digit - 10)

/-- A number with a fixed count of hexadecimal digits. -/
def hexDigits : Nat → Nat → List Char
  | 0, _ => []
  | count + 1, code => hexDigits count (code / 16) ++ [hexDigit (code % 16)]

/-- The letter that stands for a character behind a backslash. -/
def escapeLetter? (c : Char) : Option Char :=
  List.lookup c [('\x00', '0'), ('\x07', 'a'), ('\x08', 'b'), ('\t', 't'), ('\n', 'n'),
    ('\x0b', 'v'), ('\x0c', 'f'), ('\r', 'r'), ('\x1b', 'e'), ('"', '"'), ('\\', '\\'),
    ('\u0085', 'N'), ('\u00a0', '_'), ('\u2028', 'L'), ('\u2029', 'P')]

/-- A character behind a backslash, by a letter or by its number. -/
def escaped (c : Char) : List Char :=
  match escapeLetter? c with
  | some letter => ['\\', letter]
  | none =>
    if c.toNat ≤ 0xFF then '\\' :: 'x' :: hexDigits 2 c.toNat
    else if c.toNat ≤ 0xFFFF then '\\' :: 'u' :: hexDigits 4 c.toNat
    else '\\' :: 'U' :: hexDigits 8 c.toNat

/-- A character as it stands between double quotes. -/
def doubleQuotedChar (c : Char) : List Char :=
  if !isPrintable c || isBreak c || c = '"' || c = '\\' then escaped c else [c]

def doubleQuoted (chars : List Char) : List Char :=
  '"' :: (chars.flatMap doubleQuotedChar ++ ['"'])

def spaces (count : Nat) : List Char := List.replicate count ' '

/-- Indents every character that starts a line, given whether the text starts one. -/
def indentLines (depth : Nat) : Bool → List Char → List Char
  | _, [] => []
  | startsLine, c :: rest =>
    if isBreak c then c :: indentLines depth true rest
    else (if startsLine then spaces depth else []) ++ c :: indentLines depth false rest

/-- A text between single quotes, with the quotes inside doubled. -/
def singleQuoted (depth : Nat) (chars : List Char) : List Char :=
  let doubled := chars.flatMap fun c => if c = '\'' then ['\'', '\''] else [c]
  let closing := if doubled.getLast?.any isBreak then spaces depth else []
  '\'' :: (indentLines depth false doubled ++ closing ++ ['\''])

/-- What a literal block says about the breaks at its end: kept, or none. -/
def chompingMark (chars : List Char) : List Char :=
  match chars.reverse with
  | [] => ['-']
  | last :: before =>
    if !isBreak last then ['-']
    else if before.head?.all isBreak then ['+']
    else []

/-- The header of a literal block. -/
def literalHeader (chars : List Char) : List Char :=
  '|' :: ((if chars.head?.any (fun c => c = ' ' || isBreak c) then ['2'] else []) ++
    chompingMark chars)

/-- A literal block; the break at its end, if it has one, ends its last line. -/
def literal (depth : Nat) (chars : List Char) : List Char :=
  literalHeader chars ++ '\n' :: indentLines depth true chars

/-- A text in a style, with further lines at a depth. -/
def scalar (depth : Nat) (style : Style) (text : String) : List Char :=
  match style with
  | .plain => text.toList
  | .singleQuoted => singleQuoted depth text.toList
  | .doubleQuoted => doubleQuoted text.toList
  | .literal => literal depth text.toList

/-- A text as a value. -/
def textScalar (depth : Nat) (text : String) : List Char := scalar depth (styleOf text) text

/-- Whether a key can stand before a colon without a mark of its own. -/
def isSimpleKey (key : String) : Bool := !key.toList.any isBreak && key.utf8ByteSize ≤ 128

/-! ## Collections -/

/-- The start of a line at a depth. -/
def newline (depth : Nat) : List Char := '\n' :: spaces depth

/-- The start of a line behind a text, whose last line may have ended already. -/
def newlineAfter (written : List Char) (depth : Nat) : List Char :=
  if written.getLast?.any isBreak then spaces depth else newline depth

/-- Texts one below the other at a depth. -/
def joinLines (depth : Nat) : List (List Char) → List Char
  | [] => []
  | [block] => block
  | block :: rest => block ++ newlineAfter block depth ++ joinLines depth rest

/-- Where a value stands. -/
inductive Place where
  /-- Behind a key and its colon. -/
  | afterKey
  /-- Behind a mark, which stands at the depth of the value. -/
  | besideMark
  /-- Behind a tag that follows a mark. -/
  | besideTag
  deriving DecidableEq, Repr

namespace Place

/-- The place behind a further tag. -/
def tagged : Place → Place
  | .afterKey => .afterKey
  | _ => .besideTag

/-- The depth of the marks of a list. -/
def listDepth (place : Place) (depth : Nat) : Nat :=
  if place = .afterKey then depth else depth + 2

/-- What stands before a collection whose marks or keys are at a depth. -/
def opening (place : Place) (depth : Nat) : List Char :=
  if place = .besideMark then [' '] else newline depth

end Place

/-- A key with its mark or marks. -/
def keyText (depth : Nat) (key : String) : List Char :=
  if isSimpleKey key then scalar (depth + 2) (styleOf key) key ++ [':']
  else '?' :: ' ' :: joinLines depth [textScalar (depth + 2) key, [':']]

/-- The place of the value of a key. -/
def placeOfKey (key : String) : Place := if isSimpleKey key then .afterKey else .besideMark

mutual

/-- What follows a key, a mark or a tag at a depth. -/
def content (place : Place) (depth : Nat) : Value → List Char
  | .null => " null".toList
  | .bool true => " true".toList
  | .bool false => " false".toList
  | .natural value => ' ' :: Nat.toDigits 10 value
  | .text value => ' ' :: textScalar (depth + 2) value
  | .list [] => " []".toList
  | .list (item :: rest) =>
    let depth := place.listDepth depth
    place.opening depth ++ joinLines depth (itemLines depth (item :: rest))
  | .record [] => [' ', '\x7b', '\x7d']
  | .record (entry :: rest) =>
    let depth := depth + 2
    place.opening depth ++ joinLines depth (entryLines depth (entry :: rest))
  | .choice tag value => ' ' :: '!' :: (tag.toList ++ content place.tagged depth value)

/-- The items of a list whose marks are at a depth. -/
def itemLines (depth : Nat) : List Value → List (List Char)
  | [] => []
  | item :: rest => ('-' :: content .besideMark depth item) :: itemLines depth rest

/-- The entries of a table whose keys are at a depth. -/
def entryLines (depth : Nat) : List (String × Value) → List (List Char)
  | [] => []
  | (key, value) :: rest =>
    (keyText depth key ++ content (placeOfKey key) depth value) :: entryLines depth rest

end

/-- A whole document, which starts at the margin. -/
def document : Value → List Char
  | .list (item :: rest) => joinLines 0 (itemLines 0 (item :: rest))
  | .record (entry :: rest) => joinLines 0 (entryLines 0 (entry :: rest))
  | value => (content .afterKey 0 value).drop 1

/-- The text of a value; the last line is ended too. -/
def print (value : Value) : String := String.ofList (joinLines 0 [document value, []])

end ClassModel.Document.Yaml
