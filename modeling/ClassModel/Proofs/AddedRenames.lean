import ClassModel.Proofs.Revisions

/-! # Renames added to an input

To add renames is to revise what attributes declare: it leaves what a match sees of the classes that are
referred to, and what attributes declare of their types.
-/

namespace ClassModel

namespace Declaration

/-- The attribute with further renames. -/
def Attribute.addRenames (attr : Attribute) (renames : List Rename) : Attribute :=
  { attr with renames := attr.renames ++ renames }

/-- The class with further renames, given by the names of classes and attributes. -/
def Class.addRenames (added : Name → Name → List Rename) (cls : Class) : Class :=
  { cls with
    attributes := cls.attributes.map fun attr => attr.addRenames (added cls.name attr.name)
    ignoredAttributes := cls.ignoredAttributes.map fun attr => attr.addRenames (added cls.name attr.name) }

end Declaration

/-- The input with further renames, given by the names of classes and attributes. -/
def ModelInput.addRenames (added : Name → Name → List Rename) (input : ModelInput) : ModelInput :=
  { input with
    subsystems := input.subsystems.map fun subsystem =>
      { subsystem with classes := subsystem.classes.map (.addRenames added) } }

namespace Resolved

/-- The attribute with further renames. -/
def Attribute.addRenames (attr : Attribute) (renames : List Rename) : Attribute :=
  { attr with renames := attr.renames ++ renames }

/-- The class with further renames, given by the names of classes and attributes. -/
def Class.addRenames (added : Name → Name → List Rename) (cls : Class) : Class :=
  cls.mapAttributes fun attr => attr.addRenames (added cls.name attr.name)

end Resolved

/-- The model with further renames, given by the names of classes and attributes. -/
def Model.addRenames (added : Name → Name → List Rename) (model : Model) : Model :=
  { model with classes := model.classes.mapValues fun _ => .addRenames added }

/-- The revision that adds renames and leaves member lists. -/
def Revision.addRenames (added : Name → Name → List Rename) : Revision :=
  ⟨fun className attr renames => renames ++ added className attr, id⟩

variable (added : Name → Name → List Rename)

namespace Resolved.Class

theorem isUnseen_addRenames : IsUnseen (addRenames added) := isUnseen_revise (.addRenames added)

theorem allAttributes_addRenames (cls : Class) : (cls.addRenames added).allAttributes =
    cls.allAttributes.map fun attr => attr.addRenames (added cls.name attr.name) :=
  cls.allAttributes_revise (.addRenames added)

end Resolved.Class

/-- What an attribute declares of its type does not depend on renames. -/
theorem slotAttribute?_addRenames (classes : Table Name Resolved.Class) {α : Type}
    (view : Resolved.Attribute → α)
    (unseen : ∀ attr renames, view (attr.addRenames renames) = view attr) (key : SlotKey) :
    (slotAttribute? (classes.mapValues fun _ => .addRenames added) key).map view =
      (slotAttribute? classes key).map view :=
  slotAttribute?_revise (.addRenames added) classes (fun _ attr => unseen attr _) key

end ClassModel
