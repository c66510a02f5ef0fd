import ClassModel.Diagnostic
import ClassModel.Resolved.Class
import ClassModel.Resolved.Reference
import ClassModel.Resolved.StateModel
import ClassModel.Resolved.TypeTable

/-! # The resolved model

The tables that an analysis produces, all in the order of the declarations, and the look-ups
that their readers use.
-/

namespace ClassModel

/-- What is known of an ordinal relationship. -/
structure OrdinalInfo where
  rnum : Rnum
  className : Name
  group : IdGroup
  rankingAttribute : Name
  ascendingPhrase : Name
  descendingPhrase : Name
  deriving DecidableEq, Repr

/-- A complete, consistent class model. -/
structure Model where
  subsystems : Table Name Resolved.Subsystem
  classes : Table Name Resolved.Class
  relationships : Table Rnum Resolved.Relationship
  referential : ReferentialTable
  ordinals : Table Rnum OrdinalInfo
  types : TypeTable
  stateModels : List Resolved.StateModel
  warnings : List Diagnostic
  deriving DecidableEq

namespace Model

def class? (model : Model) (name : Name) : Option Resolved.Class := model.classes.get? name

def relationship? (model : Model) (rnum : Rnum) : Option Resolved.Relationship :=
  model.relationships.get? rnum

/-- The type of an attribute, ignored ones included. -/
def attributeType? (model : Model) (className attr : Name) : Option AttributeType :=
  ((model.class? className).bind (·.attribute? attr)).bind (·.type)

def stateModel? (model : Model) (name : Name) : Option Resolved.StateModel :=
  model.stateModels.find? (·.name = name)

end Model

end ClassModel
