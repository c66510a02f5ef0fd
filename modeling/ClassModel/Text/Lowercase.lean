import ClassModel.Text.LetterCase

/-! # Lower case

The full lower-case form of a text. Two rules go beyond one letter at a time: a dotted capital I
becomes two characters, and a capital sigma at the end of a word becomes a final sigma. Names
are compared by these forms wherever the model ignores case.
-/

namespace ClassModel.Text

def isCased (c : Char) : Bool := inRanges casedRanges c.toNat

def isCaseIgnorable (c : Char) : Bool := inRanges caseIgnorableRanges c.toNat

/-- The lower-case form of one character on its own. -/
def lowerChar (c : Char) : List Char :=
  if c.toNat < 128 then [c.toLower]
  else if c.toNat = 0x130 then ['i', Char.ofNat 0x307]
  else
    match capitalRanges.findSome? (·.lower? c.toNat) with
    | some code => [Char.ofNat code]
    | none => [c]

/-- Whether the next character that counts is one with case. -/
def meetsCased (chars : List Char) : Bool :=
  (chars.dropWhile isCaseIgnorable).head?.any isCased

/-- Capital sigma, final when a letter stands before it and none after it. -/
def lowerSigma (before after : List Char) : Char :=
  if meetsCased before && !meetsCased after then 'ς' else 'σ'

/-- Lower-cases the rest of a text, given what stands before it, nearest first. -/
def lowerAfter (before : List Char) : List Char → List Char
  | [] => []
  | c :: after =>
    (if c = 'Σ' then [lowerSigma before after] else lowerChar c) ++ lowerAfter (c :: before) after

/-- The lower-case form of a text. -/
def lowercase (text : String) : String := String.ofList (lowerAfter [] text.toList)

/-- The lower-case form that leaves every character above ASCII alone. -/
def lowercaseAscii (text : String) : String := text.map Char.toLower

end ClassModel.Text
