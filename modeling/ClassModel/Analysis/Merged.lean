import ClassModel.AnalysisError
import ClassModel.Resolved.Model

/-! # Merged declarations

All subsystems of an input brought together: one table of subsystems, one of classes, one of
relationships. An imported class stands for the declaration of its own subsystem. If that
subsystem is not part of the run, the class enters by its import, once, and every such import
is a warning or, under the stricter policy, an error.
-/

namespace ClassModel

/-- Every class declaration with the name of the subsystem that holds it. -/
def ModelInput.classDeclarations (input : ModelInput) : List (Name × Declaration.Class) :=
  input.subsystems.flatMap fun subsystem => subsystem.classes.map (subsystem.name, ·)

/-- Every relationship declaration with the name of the subsystem that holds it. -/
def ModelInput.relationshipDeclarations (input : ModelInput) :
    List (Name × Declaration.Relationship) :=
  input.subsystems.flatMap fun subsystem => subsystem.relationships.map (subsystem.name, ·)

/-- The declarations of one run, brought together. -/
structure Merged where
  subsystems : Table Name Resolved.Subsystem
  classes : Table Name Resolved.Class
  relationships : Table Rnum Resolved.Relationship
  warnings : List Diagnostic
  deriving DecidableEq

namespace Merged

def registerSubsystem (known : Table Name Resolved.Subsystem) (subsystem : Declaration.Subsystem) :
    Except AnalysisError (Table Name Resolved.Subsystem) :=
  if known.contains subsystem.name then .error (.duplicateSubsystem subsystem.name)
  else .ok (known.insert subsystem.name (.ofDeclaration subsystem))

/-- Notes the subsystem of a class that is declared there and not imported. -/
def registerOwner (owners : Table Name Name) (declaration : Name × Declaration.Class) :
    Except AnalysisError (Table Name Name) :=
  let (subsystem, cls) := declaration
  if cls.isImport then .ok owners
  else
    match owners.get? cls.name with
    | some first => .error (.duplicateClass cls.name first subsystem)
    | none => .ok (owners.insert cls.name subsystem)

def registerRelationship (known : Table Rnum Resolved.Relationship)
    (declaration : Name × Declaration.Relationship) :
    Except AnalysisError (Table Rnum Resolved.Relationship) :=
  let (subsystem, relationship) := declaration
  match known.get? relationship.rnum with
  | some first => .error (.duplicateRelationship relationship.rnum first.subsystem subsystem)
  | none =>
    .ok (known.insert relationship.rnum ⟨relationship.rnum, subsystem, relationship.shape⟩)

/-- Subsystem names in imports match up to case. -/
def sameSubsystem (left right : Name) : Bool := Text.lowercase left = Text.lowercase right

/-- What a class declaration contributes. -/
inductive Standing where
  /-- The class itself. -/
  | own
  /-- A further mention of a class that is declared in the run. -/
  | known
  /-- A class whose subsystem is not part of the run. -/
  | lateBound (source : Name)
  deriving DecidableEq, Repr

/-- The standing of a class declaration, given where classes are declared. -/
def standing (owners : Table Name Name) (subsystems : List Name) (into : Name)
    (cls : Declaration.Class) : Except AnalysisError Standing :=
  match cls.importedFrom with
  | none => .ok .own
  | some source =>
    match owners.get? cls.name with
    | some owner =>
      if sameSubsystem owner source then .ok .known
      else .error (.importFromWrongSubsystem cls.name source into owner)
    | none =>
      if subsystems.any (sameSubsystem · source) then .error (.importOfMissingClass cls.name source)
      else .ok (.lateBound source)

/-- The classes found so far and the warnings on the way. -/
structure ClassRegister where
  classes : Table Name Resolved.Class := .empty
  warnings : List Diagnostic := []

namespace ClassRegister

/-- Enters a class under the next number unless its name is taken. -/
def enter (register : ClassRegister) (subsystem : Name) (cls : Declaration.Class) : ClassRegister :=
  if register.classes.contains cls.name then register
  else
    let entered := Resolved.Class.ofDeclaration cls (register.classes.size + 1) subsystem
    { register with classes := register.classes.insert cls.name entered }

/-- Notes that an import stays unresolved. -/
def warn (register : ClassRegister) (className source into : Name) : ClassRegister :=
  let warning : Diagnostic :=
    { severity := .warning
      code := some AnalysisError.lateBoundImportCode
      message := (AnalysisError.importFromMissingSubsystem className source into).message
      className := some className
      subsystem := some into }
  { register with warnings := register.warnings ++ [warning] }

end ClassRegister

def registerClass (policy : ImportPolicy) (owners : Table Name Name) (subsystems : List Name)
    (register : ClassRegister) (declaration : Name × Declaration.Class) :
    Except AnalysisError ClassRegister :=
  let (into, cls) := declaration
  match standing owners subsystems into cls with
  | .error failure => .error failure
  | .ok .own => .ok (register.enter into cls)
  | .ok .known => .ok register
  | .ok (.lateBound source) =>
    match policy with
    | .deny => .error (.importFromMissingSubsystem cls.name source into)
    | .warn => .ok ((register.warn cls.name source into).enter into cls)

/-- What is wrong with a relationship: it names a class that does not exist, or it is ordinal and
not a plain reflexive association. -/
def relationshipFault? (classes : Table Name Resolved.Class)
    (relationship : Resolved.Relationship) : Option AnalysisError :=
  match relationship.shape.classNames.find? (!classes.contains ·) with
  | some unknown =>
    some (.unknownClassInRelationship relationship.rnum unknown relationship.subsystem)
  | none =>
    if relationship.isOrdinal && !relationship.shape.isPlainReflexive then
      some (.ordinalNotReflexive relationship.rnum relationship.subsystem)
    else none

/-- Brings the declarations of an input together. -/
def ofInput (input : ModelInput) (options : AnalysisOptions) : Except AnalysisError Merged := do
  let subsystems ← input.subsystems.foldlM registerSubsystem .empty
  let owners ← input.classDeclarations.foldlM registerOwner .empty
  let relationships ← input.relationshipDeclarations.foldlM registerRelationship .empty
  let register ← input.classDeclarations.foldlM
    (registerClass options.importPolicy owners subsystems.keys) {}
  match relationships.values.findSome? (relationshipFault? register.classes) with
  | some fault => .error fault
  | none => .ok ⟨subsystems, register.classes, relationships, register.warnings⟩

end Merged

end ClassModel
