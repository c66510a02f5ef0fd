import ClassModel.Declaration.Attribute
import ClassModel.Declaration.Relationship
import ClassModel.Declaration.StateModel

/-! # Subsystems and the input of an analysis

A subsystem holds classes and relationships. A class is its own or imported from another
subsystem, which may lie outside the run; the options of the analysis say what becomes of it then.
-/

namespace ClassModel

namespace Declaration

/-- A class as declared. -/
structure Class where
  name : Name
  attributes : List Attribute := []
  /-- Attributes that take part in matching but stay out of the referential table. -/
  ignoredAttributes : List Attribute := []
  importedFrom : Option Name := none
  deriving DecidableEq, Repr

namespace Class

def isImport (cls : Class) : Bool := cls.importedFrom.isSome

def withAttribute (cls : Class) (attr : Attribute) : Class :=
  { cls with attributes := cls.attributes ++ [attr] }

def withIgnoredAttribute (cls : Class) (attr : Attribute) : Class :=
  { cls with ignoredAttributes := cls.ignoredAttributes ++ [attr] }

def importFrom (cls : Class) (subsystem : Name) : Class :=
  { cls with importedFrom := some subsystem }

end Class

/-- A subsystem as declared. -/
structure Subsystem where
  name : Name
  aliasName : Option Name := none
  domain : Option Name := none
  classes : List Class := []
  relationships : List Relationship := []
  deriving DecidableEq, Repr

namespace Subsystem

def withAlias (subsystem : Subsystem) (aliasName : Name) : Subsystem :=
  { subsystem with aliasName := some aliasName }

def withDomain (subsystem : Subsystem) (domain : Name) : Subsystem :=
  { subsystem with domain := some domain }

def withClass (subsystem : Subsystem) (cls : Class) : Subsystem :=
  { subsystem with classes := subsystem.classes ++ [cls] }

def withRelationship (subsystem : Subsystem) (relationship : Relationship) : Subsystem :=
  { subsystem with relationships := subsystem.relationships ++ [relationship] }

end Subsystem

end Declaration

/-- Everything that one analysis reads. -/
structure ModelInput where
  subsystems : List Declaration.Subsystem := []
  stateModels : List Declaration.StateModel := []
  deriving DecidableEq, Repr

namespace ModelInput

def withSubsystem (input : ModelInput) (subsystem : Declaration.Subsystem) : ModelInput :=
  { input with subsystems := input.subsystems ++ [subsystem] }

def withStateModel (input : ModelInput) (model : Declaration.StateModel) : ModelInput :=
  { input with stateModels := input.stateModels ++ [model] }

end ModelInput

/-- What becomes of a class imported from a subsystem that is not part of the run. -/
inductive ImportPolicy where
  /-- The importing declaration stands, and the user is warned. -/
  | warn
  /-- The import is an error. -/
  | deny
  deriving DecidableEq, Repr

structure AnalysisOptions where
  importPolicy : ImportPolicy := .warn
  deriving DecidableEq, Repr

end ClassModel
