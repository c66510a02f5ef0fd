import ClassModel.Analysis
import ClassModel.Project.Manifest

/-! # Loading projects

A loader reads the documents that a manifest names, the subsystems before the state models and each
in the order of the manifest, and analyzes what they hold. The first document that cannot be read
ends the loading, and the error tells which one it was. Where files are read from and what reads
documents are parameters.
-/

namespace ClassModel.Project

open Document

/-- Why a project is not loaded or analyzed. -/
inductive ProjectError where
  /-- A document cannot be read. -/
  | document (path : Path) (source : DocumentError)
  /-- The documents do not fit together. -/
  | analysis (error : AnalysisError)
  deriving DecidableEq, Repr

def ProjectError.message : ProjectError → String
  | .document path source => path.text ++ ": " ++ source.message
  | .analysis error => error.message

/-- A manifest with the directory that its paths start from. -/
structure Loader where
  manifest : Manifest
  root : Path
  deriving DecidableEq, Repr

namespace Loader

variable {Files : Type} [FileSource Files]

/-- The loader of the manifest at a path; the paths in it start from its directory. -/
def ofFile [Decoder Manifest] (files : Files) (path : Path) : Except ProjectError Loader :=
  match Manifest.read files path with
  | .ok manifest => .ok ⟨manifest, path.parent⟩
  | .error source => .error (.document path source)

/-- Reads the document at a path: its format is asked for first, then its content. -/
def readDocument (α : Type) [Decoder α] (files : Files) (path : Path) : Except DocumentError α := do
  let format ← path.format
  let bytes ← FileSource.read files path
  format.decodeBytes bytes

/-- Reads the document that the manifest names by a relative path. -/
def loadDocument (α : Type) [Decoder α] (loader : Loader) (files : Files) (relative : Path) :
    Except ProjectError α :=
  let path := loader.root.join relative
  (readDocument α files path).mapError (.document path)

section Projects

variable [Decoder Declaration.Subsystem] [Decoder Declaration.StateModel]

/-- Reads every document that the manifest names. -/
def load (loader : Loader) (files : Files) : Except ProjectError ModelInput := do
  let subsystems ← loader.manifest.subsystems.mapM
    (loader.loadDocument Declaration.Subsystem files)
  let stateModels ← loader.manifest.stateModels.mapM
    (loader.loadDocument Declaration.StateModel files)
  .ok { subsystems, stateModels }

/-- Reads every document and analyzes them under the options of the manifest. -/
def analyze (loader : Loader) (files : Files) : Except ProjectError Model := do
  let input ← loader.load files
  (ClassModel.analyze input loader.manifest.options).mapError .analysis

end Projects

end Loader

end ClassModel.Project
