import ClassModel.Declaration.Attribute
import ClassModel.Diagnostic

/-! # Analysis errors

Everything that can make a model inconsistent. An error keeps the names that locate its cause;
`AnalysisError.message` is the one place where it is put into words and `AnalysisError.code`
gives the code under which it is reported.
-/

namespace ClassModel

/-- Where an attribute is declared. -/
structure Location where
  className : Name
  attr : Name
  subsystem : Name
  deriving DecidableEq, Repr

/-- A type declared for an attribute, a member list in the form of a union. -/
structure TypeDeclaration where
  location : Location
  declared : String
  deriving DecidableEq, Repr

/-- Why a navigation hint names no single end of a relationship. -/
inductive NavigationFailure where
  | noSolution
  | multipleSolutions (count : Nat)
  deriving DecidableEq, Repr

/-- Why the identifier of a referred class cannot be matched. -/
inductive MatchFailure where
  /-- No identifier group can be formed. -/
  | noSolution
  /-- Several assignments are best. -/
  | multipleSources
  /-- Every assignment would override an explicit rename. -/
  | ambiguousRename
  deriving DecidableEq, Repr

/-- A fatal inconsistency of a model. -/
inductive AnalysisError where
  | duplicateSubsystem (subsystem : Name)
  | duplicateClass (className first second : Name)
  | importFromWrongSubsystem (className source into owner : Name)
  | importOfMissingClass (className subsystem : Name)
  | importFromMissingSubsystem (className subsystem into : Name)
  | duplicateRelationship (rnum : Rnum) (first second : Name)
  | unknownClassInRelationship (rnum : Rnum) (className subsystem : Name)
  | ordinalNotReflexive (rnum : Rnum) (subsystem : Name)
  | badNavigation (className attr : Name) (hint : NavigationHint) (failure : NavigationFailure)
  | duplicateNavigation (rnum : Rnum) (className attr : Name)
  | invalidNavigation (rnum : Rnum) (className attr : Name)
  | redundantRename (rnum : Rnum) (className attr : Name)
  | unknownReferential (rnum : Rnum) (className subsystem : Name)
  | invalidReferential (rnum : Rnum) (className subsystem : Name)
  | badNaming (rnum : Rnum) (className subsystem name : Name)
  | unmatchedReference (rnum : Rnum) (className subsystem : Name) (attrs : List Name)
    (reason : MatchFailure)
  | ordinalIdentifierMismatch (rnum : Rnum) (className : Name) (attrs : List Name)
  | ordinalRankingAttribute (rnum : Rnum) (className : Name) (found : List Name)
  | multipleTypeDefinitions (declarations : List TypeDeclaration)
  | typeNotDefined (attrs : List Location)
  | conflictingUnionAlias (members aliases : List Name)
  | unknownLifecycleClass (domain className : Name)
  | unknownAssignerRelationship (domain : Name) (rnum : Rnum)
  | duplicateState (model state : Name)
  | duplicateEvent (model event : Name)
  | unknownEvent (model state event : Name)
  | unknownState (model state event target : Name)
  | duplicateTransition (model state event : Name)
  | conflictingCreationEvent (model event first second : Name)
  deriving DecidableEq, Repr

namespace Location

def render (location : Location) : String :=
  s!"Class: \"{location.className}\", Attribute: \"{location.attr}\" in Subsystem: \"{location.subsystem}\""

end Location

def TypeDeclaration.render (declaration : TypeDeclaration) : String :=
  s!"{declaration.location.render} declares \"{declaration.declared}\""

def NavigationFailure.message : NavigationFailure → String
  | .noSolution => "no valid solution"
  | .multipleSolutions count => s!"{count} possible solutions"

def MatchFailure.message : MatchFailure → String
  | .noSolution => "no attribute source found"
  | .multipleSources => "multiple attribute sources"
  | .ambiguousRename => "ambiguous attribute rename"

/-- What a hint asks for. -/
def NavigationHint.describe (hint : NavigationHint) : String :=
  let parts := (hint.rnum.map fun rnum => "relationship " ++ rnum.text).toList ++
    (hint.target.map fun target => "class " ++ target).toList ++
    (hint.phrase.map fun phrase => "phrase '" ++ phrase ++ "'").toList
  if parts.isEmpty then "any" else ", ".intercalate parts

namespace AnalysisError

/-- Each item on a line of its own. -/
def bulletList (items : List String) : String := String.join (items.map ("\n* " ++ ·))

/-- The items in quotation marks. -/
def quotedList (items : List Name) : String := ", ".intercalate (items.map fun item => s!"\"{item}\"")

/-- The error in words. -/
def message : AnalysisError → String
  | duplicateSubsystem subsystem => s!"Subsystem: \"{subsystem}\" is declared more than once"
  | duplicateClass className first second =>
    s!"Class: \"{className}\" is defined multiple times both in Subsystem: \"{first}\" and in Subsystem: \"{second}\""
  | importFromWrongSubsystem className source into owner =>
    s!"Class: \"{className}\" imported from Subsystem: \"{source}\" into Subsystem: \"{into}\" but was declared in Subsystem: \"{owner}\""
  | importOfMissingClass className subsystem =>
    s!"Class: \"{className}\" is missing in Subsystem: \"{subsystem}\""
  | importFromMissingSubsystem className subsystem into =>
    s!"Class: \"{className}\" is imported from non-existent Subsystem: \"{subsystem}\" into Subsystem: \"{into}\""
  | duplicateRelationship rnum first second =>
    s!"Relationship: \"{rnum.text}\" is declared both in Subsystem: \"{first}\" and in Subsystem: \"{second}\""
  | unknownClassInRelationship rnum className subsystem =>
    s!"Unknown Class Name: \"{className}\" in specification for Relationship: \"{rnum.text}\" which is declared in Subsystem: \"{subsystem}\""
  | ordinalNotReflexive rnum subsystem =>
    s!"Ordinal Relationship: \"{rnum.text}\" in Subsystem: \"{subsystem}\" must be a binary association with the same class on both sides"
  | badNavigation className attr hint failure =>
    s!"Bad navigation at Class: \"{className}\", Attribute: \"{attr}\" ({hint.describe}): {failure.message}"
  | duplicateNavigation rnum className attr =>
    s!"Attribute: \"{attr}\" at Class: \"{className}\" navigates the same side of Relationship: \"{rnum.text}\" more than once"
  | invalidNavigation rnum className attr =>
    s!"Navigation of Attribute: \"{attr}\" at Class: \"{className}\" does not match the other end of Relationship: \"{rnum.text}\""
  | redundantRename rnum className attr =>
    s!"Attribute: \"{attr}\" at Class: \"{className}\" is renamed more than once over Relationship: \"{rnum.text}\""
  | unknownReferential rnum className subsystem =>
    s!"Class: \"{className}\" in Subsystem: \"{subsystem}\" has a referential attribute over an unknown Relationship: \"{rnum.text}\""
  | invalidReferential rnum className subsystem =>
    s!"Relationship: \"{rnum.text}\" has an invalid referential attribute at Class: \"{className}\" in Subsystem: \"{subsystem}\""
  | badNaming rnum className subsystem name =>
    s!"Referential attributes of Class: \"{className}\" in Subsystem: \"{subsystem}\" collide on name \"{name}\" over Relationship: \"{rnum.text}\""
  | unmatchedReference rnum className subsystem attrs reason =>
    s!"Can not find referred attributes for Relationship: \"{rnum.text}\", at class: \"{className}\" declared in Subsystem: \"{subsystem}\", represented by formalized attributes: {quotedList attrs} ({reason.message})"
  | ordinalIdentifierMismatch rnum className attrs =>
    s!"Ordinal Relationship: \"{rnum.text}\" at Class: \"{className}\" has no identifier formed exactly by attributes: {quotedList attrs}"
  | ordinalRankingAttribute rnum className found =>
    s!"Ordinal Relationship: \"{rnum.text}\" at Class: \"{className}\" needs exactly one ranking attribute, found: [{quotedList found}]"
  | multipleTypeDefinitions declarations =>
    "Multiple type definitions for the following list of attributes:" ++
      bulletList (declarations.map (·.render))
  | typeNotDefined attrs =>
    "Type not defined for the following list of attributes:" ++ bulletList (attrs.map (·.render))
  | conflictingUnionAlias members aliases =>
    "Union type \"Union(" ++ ", ".intercalate members ++ ")\" has conflicting names: " ++
      quotedList aliases
  | unknownLifecycleClass domain className =>
    s!"State model of unknown Class: \"{className}\" in Domain: \"{domain}\""
  | unknownAssignerRelationship domain rnum =>
    s!"Assigner state model of unknown Relationship: \"{rnum.text}\" in Domain: \"{domain}\""
  | duplicateState model state =>
    s!"State: \"{state}\" is declared more than once in State Model: \"{model}\""
  | duplicateEvent model event =>
    s!"Event: \"{event}\" is declared more than once in State Model: \"{model}\""
  | unknownEvent model state event =>
    s!"Unknown Event: \"{event}\" at State: \"{state}\" in State Model: \"{model}\""
  | unknownState model state event target =>
    s!"Event: \"{event}\" at State: \"{state}\" targets unknown State: \"{target}\" in State Model: \"{model}\""
  | duplicateTransition model state event =>
    s!"Event: \"{event}\" has more than one transition out of State: \"{state}\" in State Model: \"{model}\""
  | conflictingCreationEvent model event first second =>
    s!"Creation Event: \"{event}\" targets both State: \"{first}\" and State: \"{second}\" in State Model: \"{model}\""

/-- The code of the error; its tens tell the part of the analysis that finds it. -/
def code : AnalysisError → String
  | duplicateSubsystem .. => "E0001"
  | duplicateClass .. => "E0002"
  | importFromWrongSubsystem .. => "E0003"
  | importOfMissingClass .. => "E0004"
  | importFromMissingSubsystem .. => "E0005"
  | duplicateRelationship .. => "E0006"
  | unknownClassInRelationship .. => "E0007"
  | ordinalNotReflexive .. => "E0008"
  | badNavigation .. => "E0010"
  | duplicateNavigation .. => "E0011"
  | invalidNavigation .. => "E0012"
  | redundantRename .. => "E0013"
  | unknownReferential .. => "E0020"
  | invalidReferential .. => "E0021"
  | badNaming .. => "E0022"
  | unmatchedReference .. => "E0023"
  | ordinalIdentifierMismatch .. => "E0030"
  | ordinalRankingAttribute .. => "E0031"
  | multipleTypeDefinitions .. => "E0040"
  | typeNotDefined .. => "E0041"
  | conflictingUnionAlias .. => "E0042"
  | unknownLifecycleClass .. => "E0050"
  | unknownAssignerRelationship .. => "E0051"
  | duplicateState .. => "E0052"
  | duplicateEvent .. => "E0053"
  | unknownEvent .. => "E0054"
  | unknownState .. => "E0055"
  | duplicateTransition .. => "E0056"
  | conflictingCreationEvent .. => "E0057"

/-- The error as a diagnostic. -/
def diagnostic (error : AnalysisError) : Diagnostic :=
  { severity := .error, code := some error.code, message := error.message }

/-- The code of a warning about an import that stays unresolved. -/
def lateBoundImportCode : String := "W0001"

end AnalysisError

end ClassModel
