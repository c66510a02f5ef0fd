import ClassModel.Document.Format
import ClassModel.Project.FileTree

/-! # Manifests

A manifest names the documents of a project and the options of its analysis. It is a document
itself, in the format that the extension of its file tells. Reading one looks for the file first
and then for the format; writing one asks for the format first.
-/

namespace ClassModel.Project

open Document

/-- The documents of a project and how to analyze them. -/
structure Manifest where
  name : String := ""
  /-- The documents of the subsystems, relative to the root of the project. -/
  subsystems : List Path := []
  /-- The documents of the state models, relative to the root of the project. -/
  stateModels : List Path := []
  options : AnalysisOptions := {}
  deriving DecidableEq, Repr

/-- The format that the extension of a path tells. -/
def Path.format? (path : Path) : Option Format := path.extension?.bind Format.ofExtension?

/-- The format of a document at a path; there must be one. -/
def Path.format (path : Path) : Except DocumentError Format :=
  match path.format? with
  | some format => .ok format
  | none => .error (.unsupported path.text)

def Path.ofTree? (tree : Tree) : Option Path := tree.text?.map Path.mk

/-- The bytes of the file at a path; there must be one. -/
def FileSource.read {Files : Type} [FileSource Files] (files : Files) (path : Path) :
    Except DocumentError ByteArray :=
  match FileSource.read? files path with
  | some bytes => .ok bytes
  | none => .error .inaccessible

/-- Writes a text to the file at a path, which must be within reach. -/
def FileTree.write (tree : FileTree) (path : Path) (text : String) : Except DocumentError FileTree :=
  match tree.write? path text with
  | some tree => .ok tree
  | none => .error .inaccessible

namespace Manifest

def withSubsystem (manifest : Manifest) (path : Path) : Manifest :=
  { manifest with subsystems := manifest.subsystems ++ [path] }

def withStateModel (manifest : Manifest) (path : Path) : Manifest :=
  { manifest with stateModels := manifest.stateModels ++ [path] }

def withOptions (manifest : Manifest) (options : AnalysisOptions) : Manifest :=
  { manifest with options }

def toValue (manifest : Manifest) : Value :=
  .record [("name", .text manifest.name),
    ("subsystems", .texts (manifest.subsystems.map (·.text))),
    ("state_models", .texts (manifest.stateModels.map (·.text))),
    ("options", manifest.options.toValue)]

def schema : List FieldName :=
  [⟨"name", []⟩, ⟨"subsystems", []⟩, ⟨"state_models", []⟩, ⟨"options", []⟩]

def ofTree? (tree : Tree) : Option Manifest := do
  let fields ← Fields.ofTree? schema tree
  let name ← fields.withDefault "name" "" Tree.text?
  let subsystems ← fields.withDefault "subsystems" [] (Tree.list? Path.ofTree?)
  let stateModels ← fields.withDefault "state_models" [] (Tree.list? Path.ofTree?)
  let options ← fields.withDefault "options" {} AnalysisOptions.ofTree?
  some { name, subsystems, stateModels, options }

instance : Documented Manifest := ⟨toValue, ofTree?⟩

/-- Reads the manifest at a path. -/
def read {Files : Type} [FileSource Files] [Decoder Manifest] (files : Files) (path : Path) :
    Except DocumentError Manifest := do
  let bytes ← FileSource.read files path
  let format ← path.format
  format.decodeBytes bytes

/-- Writes a manifest to the file at a path. -/
def write (manifest : Manifest) (tree : FileTree) (path : Path) :
    Except DocumentError FileTree := do
  let format ← path.format
  tree.write path (format.encode manifest)

end Manifest

end ClassModel.Project
