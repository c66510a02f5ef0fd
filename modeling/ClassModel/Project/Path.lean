/-! # Paths

The path of a file as a text with slashes between its parts. A path is shown as it was put together;
empty parts and single points in it count for nothing when its last part is looked for.
-/

namespace ClassModel.Project

/-- A path, kept as it is written. -/
structure Path where
  text : String
  deriving DecidableEq, Repr, Inhabited

namespace Path

/-- The parts of a text between its slashes. -/
def split : List Char → List (List Char)
  | [] => [[]]
  | c :: rest =>
    if c = '/' then [] :: split rest
    else
      match split rest with
      | [] => [[c]]
      | part :: others => (c :: part) :: others

/-- Whether a part is neither empty nor a single point. -/
def counts (part : List Char) : Bool := part != [] && part != ['.']

/-- What a path starts with, the root or the point that stands for the directory itself, and what
follows it. -/
def start : List Char → List Char × List Char
  | '/' :: rest => (['/'], rest)
  | ['.'] => (['.'], [])
  | '.' :: '/' :: rest => (['.'], '/' :: rest)
  | chars => ([], chars)

/-- The parts behind the start of a path. -/
def body (path : Path) : List (List Char) := split (start path.text.toList).2

def isAbsolute (path : Path) : Bool := path.text.toList.head? == some '/'

/-- Whether a path ends in a slash, so that a part can be put behind it. -/
def endsInSlash (path : Path) : Bool := path.text.toList.getLast? == some '/'

/-- The place of a path that starts from another one; an absolute path stands for itself. -/
def join (root relative : Path) : Path :=
  if relative.isAbsolute then relative
  else if root.text.isEmpty || root.endsInSlash then ⟨root.text ++ relative.text⟩
  else ⟨root.text ++ "/" ++ relative.text⟩

/-- The last part that counts, unless it leads upward. -/
def fileName? (path : Path) : Option (List Char) :=
  match path.body.reverse.find? counts with
  | some part => if part = ['.', '.'] then none else some part
  | none => none

/-- The path without its last part that counts. -/
def parent (path : Path) : Path :=
  let (start, rest) := start path.text.toList
  match (split rest).reverse.dropWhile (!counts ·) with
  | [] => ⟨""⟩
  | _ :: before =>
    ⟨String.ofList (start ++ ['/'].intercalate (before.dropWhile (!counts ·)).reverse)⟩

/-- What stands behind the last point of the file name, if something stands before it. -/
def extension? (path : Path) : Option String :=
  path.fileName?.bind fun name =>
    match name.reverse.span (· ≠ '.') with
    | (behind, _ :: _ :: _) => some (String.ofList behind.reverse)
    | _ => none

end Path

end ClassModel.Project
