/-! # Characters and places in a YAML text

The rules of scalars are about a few classes of characters. A text is read as the list of its
characters with their lines and columns. The ends of lines are made alike first; only the two
separators above ASCII stay what they are.
-/

namespace ClassModel.Document.Yaml

/-! ## Characters -/

/-- The characters that end a line. -/
def isBreak (c : Char) : Bool :=
  c = '\n' || c = '\r' || c = '\u0085' || c = '\u2028' || c = '\u2029'

/-- A space or a tab. -/
def isBlank (c : Char) : Bool := c = ' ' || c = '\t'

/-- A space, a tab or the end of a line. -/
def isWhite (c : Char) : Bool := isBlank c || isBreak c

/-- The characters that are written as they are. Control characters, tabs among them, are not, nor
are those above the basic plane. -/
def isPrintable (c : Char) : Bool :=
  c = '\n' || (' ' ≤ c && c ≤ '~') || ('\u00a0' ≤ c && c ≤ '\ud7ff') ||
    ('\ue000' ≤ c && c ≤ '\ufffd' && c ≠ '\ufeff')

/-- The characters that have a meaning of their own at the start of a scalar. -/
def isIndicator (c : Char) : Bool :=
  [',', '[', ']', '\x7b', '\x7d', '#', '&', '*', '!', '|', '>', '\'', '"', '%', '@', '\x60'].contains c

/-- The brackets and the comma of flow collections. -/
def isFlowIndicator (c : Char) : Bool := [',', '[', ']', '\x7b', '\x7d'].contains c

/-! ## Places -/

/-- A character with its place in the text, counted from zero. -/
structure Spot where
  char : Char
  line : Nat
  column : Nat
  deriving DecidableEq, Repr

/-- The characters of a text from a place on. -/
def locate (line column : Nat) : List Char → List Spot
  | [] => []
  | c :: rest =>
    ⟨c, line, column⟩ ::
      (if isBreak c then locate (line + 1) 0 rest else locate line (column + 1) rest)

/-- The characters that may occur in a text. -/
def isAllowed (c : Char) : Bool :=
  c = '\t' || c = '\n' || c = '\r' || (' ' ≤ c && c ≤ '~') || c = '\u0085' ||
    ('\u00a0' ≤ c && c ≤ '\ud7ff') || ('\ue000' ≤ c && c ≤ '\ufffd') || 0x10000 ≤ c.toNat

/-- A text with every end of a line written as one newline. -/
def normalizeBreaks : List Char → List Char
  | [] => []
  | '\r' :: '\n' :: rest => '\n' :: normalizeBreaks rest
  | '\r' :: rest => '\n' :: normalizeBreaks rest
  | '\u0085' :: rest => '\n' :: normalizeBreaks rest
  | c :: rest => c :: normalizeBreaks rest

/-- Whether the text ends here or goes on with white space. -/
def atWhite : List Spot → Bool
  | [] => true
  | spot :: _ => isWhite spot.char

/-- Whether a character stands here and white space or the end behind it. -/
def atMark (mark : Char) : List Spot → Bool
  | [] => false
  | spot :: rest => spot.char = mark && atWhite rest

/-- Whether the line between two documents starts here, with dashes or with points. -/
def atDivider (mark : Char) : List Spot → Bool
  | a :: b :: c :: rest =>
    a.column = 0 && a.char = mark && b.char = mark && c.char = mark && atWhite rest
  | _ => false

/-- Whether a document ends here. -/
def atDocumentEnd (spots : List Spot) : Bool := atDivider '-' spots || atDivider '.' spots

/-- Skips spaces, comments and the ends of lines. Tabs are skipped only where no key of a block may
start; the end of a line lets one start, except inside brackets. -/
def skipFiller (inBrackets : Bool) : Bool → Bool → List Spot → List Spot × Bool
  | keyAllowed, _, [] => ([], keyAllowed)
  | keyAllowed, inComment, spot :: rest =>
    if isBreak spot.char then skipFiller inBrackets (keyAllowed || !inBrackets) false rest
    else if inComment then skipFiller inBrackets keyAllowed true rest
    else if spot.char = ' ' then skipFiller inBrackets keyAllowed false rest
    else if spot.char = '\t' && (inBrackets || !keyAllowed) then
      skipFiller inBrackets keyAllowed false rest
    else if spot.char = '#' then skipFiller inBrackets keyAllowed true rest
    else (spot :: rest, keyAllowed)

/-- Skips spaces and tabs. -/
def skipBlanks (spots : List Spot) : List Spot := spots.dropWhile (isBlank ·.char)

/-- What follows the colon that makes a key of what started at a spot. The colon stands on the line
of the key, at most 1024 characters behind its start. Inside brackets any colon will do, else white
space must follow it. -/
def afterKey? (inBrackets : Bool) (start : Spot) (spots : List Spot) : Option (List Spot) :=
  match skipBlanks spots with
  | spot :: rest =>
    if spot.char = ':' && (inBrackets || atWhite rest) && spot.line = start.line &&
        spot.column ≤ start.column + 1024 then some rest
    else none
  | [] => none

end ClassModel.Document.Yaml
