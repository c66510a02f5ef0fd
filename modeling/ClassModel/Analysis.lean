import ClassModel.Analysis.Endpoints
import ClassModel.Analysis.Merged
import ClassModel.Analysis.Ordinals
import ClassModel.Analysis.StateTables
import ClassModel.Analysis.Types

/-! # Analysis

From the declarations of a run to its resolved model. The parts of an analysis build on each
other, and the first inconsistency ends it.
-/

namespace ClassModel

/-- Everything that an analysis works out. -/
structure Analysis where
  merged : Merged
  /-- The classes with their hints pinned. -/
  classes : Table Name Resolved.Class
  references : References
  ordinals : Table Rnum OrdinalInfo
  typing : Typing
  types : TypeTable
  stateModels : List Resolved.StateModel

namespace Analysis

/-- Analyzes an input. -/
def ofInput (input : ModelInput) (options : AnalysisOptions) : Except AnalysisError Analysis := do
  let merged ← Merged.ofInput input options
  let classes ← navigateClasses merged.relationships merged.classes
  let references ← References.ofClasses merged.relationships classes
  let ordinals ← ordinalTable merged.relationships classes
  let typing ← Typing.ofReferences classes references
  let types ← typing.typeTable classes.values
  let stateModels ← input.stateModels.mapM
    (Declaration.StateModel.resolve merged.classes merged.relationships)
  .ok { merged, classes, references, ordinals, typing, types, stateModels }

/-- The resolved model. -/
def model (analysis : Analysis) : Model where
  subsystems := analysis.merged.subsystems
  classes := analysis.classes.mapValues fun _ cls => analysis.typing.annotate cls
  relationships := analysis.merged.relationships
  referential := analysis.references.referential
  ordinals := analysis.ordinals
  types := analysis.types
  stateModels := analysis.stateModels
  warnings := analysis.merged.warnings

end Analysis

/-- The resolved model of an input under some options. -/
def analyze (input : ModelInput) (options : AnalysisOptions := {}) : Except AnalysisError Model :=
  (Analysis.ofInput input options).map (·.model)

end ClassModel
