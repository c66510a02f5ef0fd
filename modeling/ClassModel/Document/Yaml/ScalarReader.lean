import ClassModel.Document.Yaml.Spot
import ClassModel.Text.Numeral

/-! # Reading scalars

The four ways to write a scalar, read from their first character on. Where a scalar goes over
several lines, a single end of a line becomes a space and an empty line becomes the end of a line;
only literal blocks keep their lines.
-/

namespace ClassModel.Document.Yaml

/-! ## Flowing text -/

/-- White space between two parts of flowing text. -/
inductive Gap where
  /-- Spaces and tabs inside a line. -/
  | blanks (chars : List Char)
  /-- The end of a line, none if it is escaped, and the ends of empty lines after it. -/
  | breaks (first : Option Char) (further : List Char)
  deriving DecidableEq, Repr

namespace Gap

/-- No white space at all. -/
def none : Gap := .blanks []

/-- Whether a line ends in the gap. -/
def isBroken : Gap → Bool
  | .blanks _ => false
  | .breaks _ _ => true

/-- The gap with one more character of white space. -/
def add (gap : Gap) (c : Char) : Gap :=
  match gap with
  | .blanks chars => if isBreak c then .breaks (some c) [] else .blanks (chars ++ [c])
  | .breaks first further => if isBreak c then .breaks first (further ++ [c]) else gap

/-- What the gap stands for. -/
def fold : Gap → List Char
  | .blanks chars => chars
  | .breaks (some '\n') [] => [' ']
  | .breaks (some '\n') further => further
  | .breaks (some first) further => first :: further
  | .breaks Option.none further => further

end Gap

/-- A scalar that has been read. -/
structure Reading where
  chars : List Char
  rest : List Spot
  /-- Whether a line has ended behind the scalar, so that a key may start. -/
  keyAllowed : Bool

/-! ## Plain scalars -/

/-- Whether a plain scalar can start here. -/
def startsPlain (inBrackets : Bool) : List Spot → Bool
  | [] => false
  | spot :: rest =>
    if spot.char = '-' then !atWhite rest
    else if spot.char = '?' || spot.char = ':' then !inBrackets && !atWhite rest
    else !isWhite spot.char && !isIndicator spot.char

/-- Whether a plain scalar ends before the character that comes next. -/
def endsPlain (inBrackets : Bool) : List Spot → Bool
  | [] => true
  | spot :: rest =>
    (spot.char = ':' && atWhite rest) || (inBrackets && isFlowIndicator spot.char)

/-- Whether a colon stands right before a bracket, a comma or a question mark, which is an error
inside brackets. -/
def hasStrayColon : List Spot → Bool
  | colon :: next :: _ => colon.char = ':' && (next.char = '?' || isFlowIndicator next.char)
  | _ => false

/-- Reads a plain scalar. In a block its further lines stand at least at the column `floor`. -/
def plainFrom (inBrackets : Bool) (floor : Nat) (before : List Char) (gap : Gap) :
    List Spot → Option Reading
  | [] => some ⟨before, [], gap.isBroken⟩
  | spot :: rest =>
    if isWhite spot.char then
      if gap.isBroken && spot.char = '\t' && spot.column < floor then none
      else plainFrom inBrackets floor before (gap.add spot.char) rest
    else if gap.isBroken && !inBrackets && spot.column < floor then
      some ⟨before, spot :: rest, true⟩
    else if atDocumentEnd (spot :: rest) || (gap ≠ .none && spot.char = '#') then
      some ⟨before, spot :: rest, gap.isBroken⟩
    else if inBrackets && hasStrayColon (spot :: rest) then none
    else if endsPlain inBrackets (spot :: rest) then some ⟨before, spot :: rest, gap.isBroken⟩
    else plainFrom inBrackets floor (before ++ gap.fold ++ [spot.char]) .none rest

/-! ## Quoted scalars -/

/-- The character that a letter stands for behind a backslash. -/
def unescape? (letter : Char) : Option Char :=
  List.lookup letter [('0', '\x00'), ('a', '\x07'), ('b', '\x08'), ('t', '\t'), ('\t', '\t'),
    ('n', '\n'), ('v', '\x0b'), ('f', '\x0c'), ('r', '\r'), ('e', '\x1b'), (' ', ' '), ('"', '"'),
    ('/', '/'), ('\\', '\\'), ('N', '\u0085'), ('_', '\u00a0'), ('L', '\u2028'), ('P', '\u2029')]

/-- How many hexadecimal digits follow a letter behind a backslash. -/
def escapeWidth? (letter : Char) : Option Nat :=
  List.lookup letter [('x', 2), ('u', 4), ('U', 8)]

/-- A character by its number, which must not be half of a surrogate pair. -/
def character? (code : Nat) : Option Char :=
  if code.isValidChar then some (Char.ofNat code) else none

/-- Reads a character behind a backslash. -/
def escape? : List Spot → Option (Char × List Spot)
  | [] => none
  | spot :: rest =>
    match escapeWidth? spot.char with
    | some width => do
      let digits := rest.take width
      if digits.length < width then none
      else
        let code ← Text.natural? 16 (digits.map (·.char))
        let c ← character? code
        some (c, rest.drop width)
    | none => (unescape? spot.char).map (·, rest)

/-- Reads the rest of a single-quoted scalar. -/
def singleQuotedFrom (before : List Char) (gap : Gap) : List Spot → Option Reading
  | [] => none
  | spot :: rest =>
    if atDocumentEnd (spot :: rest) then none
    else if isWhite spot.char then singleQuotedFrom before (gap.add spot.char) rest
    else if spot.char = '\'' then
      match rest with
      | next :: others =>
        if next.char = '\'' then singleQuotedFrom (before ++ gap.fold ++ ['\'']) .none others
        else some ⟨before ++ gap.fold, rest, false⟩
      | [] => some ⟨before ++ gap.fold, [], false⟩
    else singleQuotedFrom (before ++ gap.fold ++ [spot.char]) .none rest

/-- Reads the rest of a double-quoted scalar. -/
def doubleQuotedFrom : Nat → List Char → Gap → List Spot → Option Reading
  | 0, _, _, _ => none
  | _, _, _, [] => none
  | fuel + 1, before, gap, spot :: rest =>
    if atDocumentEnd (spot :: rest) then none
    else if isWhite spot.char then doubleQuotedFrom fuel before (gap.add spot.char) rest
    else if spot.char = '"' then some ⟨before ++ gap.fold, rest, false⟩
    else if spot.char = '\\' then
      match rest with
      | next :: others =>
        if isBreak next.char then
          doubleQuotedFrom fuel (before ++ gap.fold) (.breaks Option.none []) others
        else
          (escape? rest).bind fun (c, rest) =>
            doubleQuotedFrom fuel (before ++ gap.fold ++ [c]) .none rest
      | [] => none
    else doubleQuotedFrom fuel (before ++ gap.fold ++ [spot.char]) .none rest

/-! ## Blocks -/

/-- What becomes of the ends of lines at the end of a block. -/
inductive Chomping where
  | strip
  | clip
  | keep
  deriving DecidableEq, Repr

/-- What the header of a block says. -/
structure BlockHeader where
  folded : Bool
  chomping : Chomping := .clip
  /-- How much deeper than its surroundings the block is, if the header says so. -/
  indentation : Option Nat := none
  deriving DecidableEq, Repr

namespace BlockHeader

/-- Reads the marks of a header up to the first that is none; each kind occurs once. -/
def marks? (header : BlockHeader) : List Spot → Option (BlockHeader × List Spot)
  | first :: rest =>
    match chomping? first.char, digit? first.char with
    | some chomping, _ =>
      match rest with
      | second :: others =>
        match digit? second.char with
        | some 0 => none
        | some digit => some ({ header with chomping, indentation := some digit }, others)
        | none => some ({ header with chomping }, rest)
      | [] => some ({ header with chomping }, [])
    | none, some 0 => none
    | none, some digit =>
      match rest with
      | second :: others =>
        match chomping? second.char with
        | some chomping => some ({ header with chomping, indentation := some digit }, others)
        | none => some ({ header with indentation := some digit }, rest)
      | [] => some ({ header with indentation := some digit }, [])
    | none, none => some (header, first :: rest)
  | [] => some (header, [])
where
  chomping? (c : Char) : Option Chomping :=
    if c = '+' then some .keep else if c = '-' then some .strip else none
  digit? (c : Char) : Option Nat := if '0' ≤ c ∧ c ≤ '9' then some (c.toNat - '0'.toNat) else none

/-- Reads what may follow the marks on their line: blanks and a comment. -/
def endLine? (spots : List Spot) : Option (List Spot) :=
  let rest := skipBlanks spots
  let rest := if rest.head?.any (·.char = '#') then rest.dropWhile (!isBreak ·.char) else rest
  match rest with
  | [] => some []
  | spot :: rest => if isBreak spot.char then some rest else none

end BlockHeader

/-- The empty lines at a place in a block. -/
structure BlockBreaks where
  breaks : List Char
  /-- The largest number of spaces met at the start of a line. -/
  widest : Nat
  rest : List Spot

/-- Reads empty lines and the indentation of the line behind them. Spaces count as indentation up to
the given one, all of them if none is given. -/
def blockBreaks? (indentation : Option Nat) (widest : Nat) (column : Nat) (breaks : List Char) :
    List Spot → Option BlockBreaks
  | [] => some ⟨breaks, max widest column, []⟩
  | spot :: rest =>
    if indentation.all (column < ·) && spot.char = ' ' then
      blockBreaks? indentation widest (column + 1) breaks rest
    else if indentation.all (column < ·) && spot.char = '\t' then none
    else if isBreak spot.char then
      blockBreaks? indentation (max widest column) 0 (breaks ++ [spot.char]) rest
    else some ⟨breaks, max widest column, spot :: rest⟩

/-- A block under way. -/
structure BlockState where
  chars : List Char := []
  /-- The end of the last line. -/
  last : List Char := []
  /-- The ends of the empty lines after it. -/
  empty : List Char
  /-- Whether the last line started with a blank. -/
  blank : Bool := false

namespace BlockState

/-- The ends of lines before a further line. In a folded block a single one becomes a space, unless
a line next to it starts with a blank. -/
def joint (state : BlockState) (folded nextBlank : Bool) : List Char :=
  if folded && state.last = ['\n'] && !state.blank && !nextBlank then
    (if state.empty.isEmpty then [' '] else state.empty)
  else state.last ++ state.empty

/-- The whole text of the block. -/
def close (state : BlockState) (chomping : Chomping) : List Char :=
  match chomping with
  | .strip => state.chars
  | .clip => state.chars ++ state.last
  | .keep => state.chars ++ state.last ++ state.empty

end BlockState

/-- Reads the lines of a block that stand at its indentation. -/
def blockLines (header : BlockHeader) (indentation : Nat) :
    Nat → BlockState → List Spot → Option Reading
  | 0, _, _ => none
  | _ + 1, state, [] => some ⟨state.close header.chomping, [], true⟩
  | fuel + 1, state, spot :: rest =>
    if spot.column ≠ indentation then some ⟨state.close header.chomping, spot :: rest, true⟩
    else
      let nextBlank := isBlank spot.char
      let (line, behind) := (spot :: rest).span (!isBreak ·.char)
      let chars := state.chars ++ state.joint header.folded nextBlank ++ line.map (·.char)
      match behind with
      | [] => some ⟨({ chars, empty := [] } : BlockState).close header.chomping, [], true⟩
      | ending :: below =>
        (blockBreaks? (some indentation) 0 0 [] below).bind fun found =>
          blockLines header indentation fuel
            { chars, last := [ending.char], empty := found.breaks, blank := nextBlank } found.rest

/-- Reads a block behind its first mark. Its lines stand at least at the column `floor`. -/
def block? (folded : Bool) (floor : Nat) (spots : List Spot) : Option Reading := do
  let (header, rest) ← BlockHeader.marks? { folded } spots
  let rest ← BlockHeader.endLine? rest
  let given := header.indentation.map fun digit => if floor = 0 then digit else floor - 1 + digit
  let found ← blockBreaks? given 0 0 [] rest
  let indentation := given.getD (max found.widest (max floor 1))
  blockLines header indentation (rest.length + 1) { empty := found.breaks } found.rest

end ClassModel.Document.Yaml
