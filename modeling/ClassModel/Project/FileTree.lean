import ClassModel.Project.Path
import ClassModel.Table

/-! # File trees

What files can be read from, and as one such place the text files below a directory. A directory exists
as far as there is a file in it. A path is followed part by part from the top, and each part must stand
in a directory; nothing outside the tree can be reached.
-/

namespace ClassModel.Project

/-- A place to read files from: the bytes of the file at a path, if there is one that can be read. -/
class FileSource (Files : Type) where
  read? : Files → Path → Option ByteArray

/-- The files of a directory by the names that lead to them. -/
structure FileTree where
  files : Table (List String) String
  deriving DecidableEq, Repr

namespace FileTree

/-- The names that lead to a path that does not lead upward. -/
def names (path : Path) : List String := (path.body.filter Path.counts).map String.ofList

/-- The tree of a list of paths with the texts of their files. -/
def ofFiles (files : List (Path × String)) : FileTree :=
  ⟨.ofList (files.map fun (path, text) => (names path, text))⟩

/-- Whether a list of names leads to a directory. -/
def isDirectory (tree : FileTree) (names : List String) : Bool :=
  names.isEmpty ||
    tree.files.keys.any fun file => names.length < file.length && file.take names.length = names

/-- A name of a file or directory has no null character and at most 255 bytes. -/
def isName (part : String) : Bool := part.utf8ByteSize ≤ 255 && !part.toList.contains '\x00'

/-- Follows one part of a path from a directory. -/
def step? (tree : FileTree) (place : List String) (part : List Char) : Option (List String) :=
  if !tree.isDirectory place then none
  else if !Path.counts part then some place
  else if part = ['.', '.'] then if place.isEmpty then none else some place.dropLast
  else if isName (String.ofList part) then some (place ++ [String.ofList part])
  else none

/-- The names that a path leads to. All but the last of them lead to directories. -/
def locate? (tree : FileTree) (path : Path) : Option (List String) :=
  if path.text.isEmpty || path.isAbsolute then none
  else (Path.split path.text.toList).foldlM tree.step? []

/-- The text of the file at a path. -/
def read? (tree : FileTree) (path : Path) : Option String :=
  (tree.locate? path).bind tree.files.get?

/-- The tree with a text written to the file at a path, which may be new. -/
def write? (tree : FileTree) (path : Path) (text : String) : Option FileTree :=
  (tree.locate? path).bind fun names =>
    if tree.isDirectory names then none else some ⟨tree.files.insert names text⟩

end FileTree

/-- A text is kept in UTF-8. -/
instance : FileSource FileTree := ⟨fun tree path => (tree.read? path).map String.toUTF8⟩

end ClassModel.Project
