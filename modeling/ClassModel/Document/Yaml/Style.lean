import ClassModel.Document.Scalar
import ClassModel.Document.Yaml.Spot

/-! # Scalar styles

In which of the four ways a text is written. Plain text has no marks around it; it must not read
as something else, and neither a space at an end nor an indicator may mislead the reader. A text
of several lines is a literal block. Double quotes can write everything and are the last resort.
-/

namespace ClassModel.Document.Yaml

/-- The ways to write a scalar. -/
inductive Style where
  | plain
  | singleQuoted
  | doubleQuoted
  | literal
  deriving DecidableEq, Repr

/-- Whether two neighbours are in a text, the first of one class and the second of another. -/
def hasNeighbours (first second : Char → Bool) : List Char → Bool
  | a :: b :: rest => (first a && second b) || hasNeighbours first second (b :: rest)
  | _ => false

/-- Whether an indicator inside a text behind its first character would mislead: a colon before
white space or at the end, or a number sign behind white space. -/
def misleadsInside : List Char → Bool
  | [] => false
  | [c] => c = ':'
  | c :: next :: rest =>
    (c = ':' && isWhite next) || (isWhite c && next = '#') || misleadsInside (next :: rest)

/-- Whether the first character would mislead: an indicator, or one that is an indicator before
white space or at the end. -/
def misleadsAtStart : List Char → Bool
  | [] => false
  | c :: rest =>
    isIndicator c || ((c = '?' || c = ':' || c = '-') && rest.head?.all isWhite)

/-- Whether the text starts like the line between two documents. -/
def startsLikeMarker : List Char → Bool
  | '-' :: '-' :: '-' :: _ => true
  | '.' :: '.' :: '.' :: _ => true
  | _ => false

/-- What matters about a text for the choice of its style. -/
structure Profile where
  chars : List Char

namespace Profile

def hasBreak (profile : Profile) : Bool := profile.chars.any isBreak

def hasSpecial (profile : Profile) : Bool := profile.chars.any (!isPrintable ·)

def hasSpaceBreak (profile : Profile) : Bool := hasNeighbours (· = ' ') isBreak profile.chars

def hasBreakSpace (profile : Profile) : Bool := hasNeighbours isBreak (· = ' ') profile.chars

/-- Whether the text ends in a space. -/
def endsInSpace (profile : Profile) : Bool := profile.chars.getLast? = some ' '

/-- Whether the text starts or ends in a space or the end of a line. -/
def hasLooseEnd (profile : Profile) : Bool :=
  profile.chars.head?.any (fun c => c = ' ' || isBreak c) ||
    profile.chars.getLast?.any (fun c => c = ' ' || isBreak c)

def allowsPlain (profile : Profile) : Bool :=
  !profile.hasLooseEnd && !profile.hasBreak && !profile.hasSpecial &&
    !startsLikeMarker profile.chars && !misleadsAtStart profile.chars &&
    !misleadsInside profile.chars

def allowsSingleQuoted (profile : Profile) : Bool :=
  !profile.hasBreakSpace && !profile.hasSpaceBreak && !profile.hasSpecial

def allowsLiteral (profile : Profile) : Bool :=
  !profile.chars.isEmpty && !profile.endsInSpace && !profile.hasSpaceBreak && !profile.hasSpecial

end Profile

/-- Whether a text would read as something else than itself without marks. -/
def needsMarks (text : String) : Bool :=
  Scalar.ofPlain text ≠ .text || Scalar.isZeroPadded text.toList

/-- Single quotes where they can be used, else double quotes. -/
def quotedStyle (profile : Profile) : Style :=
  if profile.allowsSingleQuoted then .singleQuoted else .doubleQuoted

/-- The style of a text. -/
def styleOf (text : String) : Style :=
  let profile : Profile := ⟨text.toList⟩
  if profile.chars.contains '\n' then
    if profile.allowsLiteral then .literal else .doubleQuoted
  else if needsMarks text then quotedStyle profile
  else if profile.allowsPlain then .plain
  else quotedStyle profile

end ClassModel.Document.Yaml
