import ClassModel.Project.Manifest
import ClassModel.Proofs.RecordFields

/-! # Declarations are read as they were written

For each declaration, `ofTree?_toValue` says that the tree of its document is read as the declaration in
either format, and `fits` how deep the document is. What writing leaves out is what reading supplies, and
no alternative of an open record reads the fields of another.
-/

namespace ClassModel

open Document
open Document.Schema (InOrder)

variable (format : Format) {depth : Nat}

/-! ## Names of alternatives -/

@[simp] theorem IdGroup.ofTree?_toValue (group : IdGroup) :
    ofTree? (group.toValue.treeIn format) = some group := by
  cases group <;> simp [ofTree?, toValue, label]

@[simp] theorem IdGroup.fits (group : IdGroup) : group.toValue.Fits depth := .text

@[simp] theorem Multiplicity.ofTree?_toValue (multiplicity : Multiplicity) :
    ofTree? (multiplicity.toValue.treeIn format) = some multiplicity := by
  cases multiplicity <;> simp [ofTree?, toValue]

theorem Multiplicity.selfTyped (multiplicity : Multiplicity) : multiplicity.toValue.SelfTyped := by
  cases multiplicity <;> exact .text

@[simp] theorem Multiplicity.fits (multiplicity : Multiplicity) : multiplicity.toValue.Fits depth := by
  cases multiplicity <;> exact .text

@[simp] theorem EventKind.ofTree?_toValue (kind : EventKind) :
    ofTree? (kind.toValue.treeIn format) = some kind := by
  cases kind <;> simp [ofTree?, toValue]

@[simp] theorem EventKind.fits (kind : EventKind) : kind.toValue.Fits depth := by
  cases kind <;> exact .text

@[simp] theorem Rnum.ofTree?_toValue (rnum : Rnum) : ofTree? (rnum.toValue.treeIn format) = some rnum := by
  simp [ofTree?, toValue]

@[simp] theorem Rnum.isNull_toValue (rnum : Rnum) : (rnum.toValue.treeIn format).isNull = false := by
  simp [toValue]

@[simp] theorem Rnum.fits (rnum : Rnum) : rnum.toValue.Fits depth := .text

@[simp] theorem ImportPolicy.ofTree?_toValue (policy : ImportPolicy) :
    ofTree? (policy.toValue.treeIn format) = some policy := by
  cases policy <;> simp [ofTree?, toValue]

@[simp] theorem ImportPolicy.fits (policy : ImportPolicy) : policy.toValue.Fits depth := by
  cases policy <;> exact .text

/-! ## Attributes and classes -/

@[simp] theorem Rename.ofTree?_toValue (rename : Rename) :
    ofTree? (rename.toValue.treeIn format) = some rename := by
  rw [ofTree?, toValue, Fields.ofTree?_treeIn]
  · simp
  · decide
  · exact List.Sublist.refl _

@[simp] theorem Rename.fits (rename : Rename) : rename.toValue.Fits (depth + 1) := by
  simp [toValue]

@[simp] theorem NavigationHint.ofTree?_toValue (hint : NavigationHint) :
    ofTree? (hint.toValue.treeIn format) = some hint := by
  rw [ofTree?, toValue, Fields.ofTree?_treeIn]
  · simp [List.lookup_append]
  · decide
  · exact (((InOrder.field? "rnum" _).append (.field? "class" _)).append (.field? "phrase" _)).append
      (.field? "rename" _)

@[simp] theorem NavigationHint.fits (hint : NavigationHint) : hint.toValue.Fits (depth + 1) := by
  simp [toValue]

namespace Declaration

@[simp] theorem Attribute.ofTree?_toValue (attr : Attribute) :
    ofTree? (attr.toValue.treeIn format) = some attr := by
  rw [ofTree?, toValue, Fields.ofTree?_treeIn]
  · simp [List.lookup_append]
  · decide
  · exact ((((((((InOrder.nil.cons.append (.field? "type" _)).append
      (.field? "union_type_members" _)).append
      (.listField "identifier_group_memberships" _)).append (.listField "relationship_numbers" _)).append
      (.listField "union_relationship_numbers" _)).append (.listField "navigation_hints" _)).append
      (.listField "rename" _)).append (.field? "ranking_relationship" _))

@[simp] theorem Attribute.fits (attr : Attribute) : attr.toValue.Fits (depth + 3) := by
  simp [toValue]

@[simp] theorem Class.ofTree?_toValue (cls : Class) : ofTree? (cls.toValue.treeIn format) = some cls := by
  rw [ofTree?, toValue, Fields.ofTree?_treeIn]
  · simp [List.lookup_append]
  · decide
  · exact (InOrder.nil.cons.cons.append (.listField "ignored_attributes" _)).append
      (.field? "imported_from" _)

@[simp] theorem Class.fits (cls : Class) : cls.toValue.Fits (depth + 5) := by
  simp [toValue]

end Declaration

/-! ## Relationships -/

@[simp] theorem Perspective.ofTree?_toValue (perspective : Perspective) :
    ofTree? (perspective.toValue.treeIn format) = some perspective := by
  rw [ofTree?, toValue, Fields.ofTree?_treeIn]
  · simp
  · decide
  · exact List.Sublist.refl _

theorem Perspective.selfTyped (perspective : Perspective) : perspective.toValue.SelfTyped :=
  .record (by simp [Multiplicity.selfTyped, Value.SelfTyped.text, Value.SelfTyped.bool])

@[simp] theorem Perspective.fits (perspective : Perspective) : perspective.toValue.Fits (depth + 1) := by
  simp [toValue]

namespace Shape

theorem inOrder_association (passive active : Perspective) (associationClass : Option Name) :
    InOrder ["p_side", "t_side", "association_class"] (association passive active associationClass).fields :=
  InOrder.nil.cons.cons.append (.field? "association_class" _)

theorem inOrder_generalization (superclass : Name) (subclasses : List Name) :
    InOrder ["superclass", "subclasses"] (generalization superclass subclasses).fields :=
  List.Sublist.refl _

/-- An association has none of the fields of a generalization, so that each is read as what it is. -/
@[simp] theorem ofTree?_fields (shape : Shape) :
    ofTree? ((Value.record shape.fields).treeIn format) = some shape := by
  cases shape with
  | association passive active associationClass =>
    have read : association? ((Value.record (association passive active associationClass).fields).treeIn
        format) = some (association passive active associationClass) := by
      rw [association?, Fields.ofMap?_treeIn]
      · simp [fields]
      · decide
      · exact inOrder_association passive active associationClass
    rw [ofTree?, read]
    rfl
  | generalization superclass subclasses =>
    have other : association? ((Value.record (generalization superclass subclasses).fields).treeIn
        format) = none := by
      rw [association?, Fields.ofMap?_treeIn_foreign (inOrder_generalization superclass subclasses)]
      · simp
      · decide
    have read : generalization? ((Value.record (generalization superclass subclasses).fields).treeIn
        format) = some (generalization superclass subclasses) := by
      rw [generalization?, Fields.ofMap?_treeIn]
      · simp [fields]
      · decide
      · exact inOrder_generalization superclass subclasses
    rw [ofTree?, other, read]
    rfl

theorem inOrder_fields (shape : Shape) :
    InOrder ["p_side", "t_side", "association_class", "superclass", "subclasses"] shape.fields := by
  cases shape with
  | association passive active associationClass =>
    exact (inOrder_association passive active associationClass).trans (List.sublist_append_left _ _)
  | generalization superclass subclasses =>
    exact (inOrder_generalization superclass subclasses).trans
      (List.sublist_append_right ["p_side", "t_side", "association_class"] _)

theorem selfTyped_fields (shape : Shape) : ∀ field ∈ shape.fields, field.2.SelfTyped := by
  cases shape with
  | association passive active associationClass =>
    cases associationClass <;> simp [fields, Value.field?, Perspective.selfTyped, Value.SelfTyped.text]
  | generalization superclass subclasses => simp [fields, Value.SelfTyped.text, Value.SelfTyped.texts]

@[simp] theorem fits_fields (shape : Shape) : Value.FieldsFit (depth + 1) shape.fields := by
  cases shape <;> simp [fields]

end Shape

namespace Declaration

@[simp] theorem Relationship.ofTree?_toValue (relationship : Relationship) :
    ofTree? (relationship.toValue.treeIn format) = some relationship := by
  have shape := Shape.ofTree?_fields .json relationship.shape
  rw [Value.treeIn] at shape
  have parts : ("id", relationship.rnum.toValue) :: relationship.shape.fields =
      [("id", relationship.rnum.toValue)] ++ relationship.shape.fields ++ [] := by simp
  rw [ofTree?, toValue, parts, Fields.Open.ofTree?_treeIn relationship.shape.inOrder_fields]
  · simp [shape]
  · decide
  · exact List.Sublist.refl _
  · decide
  · exact relationship.shape.selfTyped_fields

@[simp] theorem Relationship.fits (relationship : Relationship) :
    relationship.toValue.Fits (depth + 2) := by
  simp [toValue]

end Declaration

/-! ## State models -/

@[simp] theorem Parameter.ofTree?_toValue (parameter : Parameter) :
    ofTree? (parameter.toValue.treeIn format) = some parameter := by
  rw [ofTree?, toValue, Fields.ofTree?_treeIn]
  · simp
  · decide
  · exact List.Sublist.refl _

@[simp] theorem Parameter.fits (parameter : Parameter) : parameter.toValue.Fits (depth + 1) := by
  simp [toValue]

@[simp] theorem Event.ofTree?_toValue (event : Event) :
    ofTree? (event.toValue.treeIn format) = some event := by
  rw [ofTree?, toValue, Fields.ofTree?_treeIn]
  · simp
  · decide
  · exact List.Sublist.refl _

@[simp] theorem Event.fits (event : Event) : event.toValue.Fits (depth + 3) := by
  simp [toValue]

namespace Owner

/-- The owner of a lifecycle has no field of that of an assigner, and the other way round. -/
@[simp] theorem ofTree?_fields (owner : Owner) :
    ofTree? ((Value.record owner.fields).treeIn format) = some owner := by
  cases owner with
  | lifecycle className =>
    have read : lifecycle? ((Value.record (lifecycle className).fields).treeIn format) =
        some (lifecycle className) := by
      rw [lifecycle?, Fields.ofMap?_treeIn]
      · simp [fields]
      · decide
      · exact List.Sublist.refl _
    rw [ofTree?, read]
    rfl
  | assigner rnum =>
    have other : lifecycle? ((Value.record (assigner rnum).fields).treeIn format) = none := by
      have listed : InOrder ["assigner_relationship"] (assigner rnum).fields := List.Sublist.refl _
      rw [lifecycle?, Fields.ofMap?_treeIn_foreign listed]
      · simp
      · decide
    have read : assigner? ((Value.record (assigner rnum).fields).treeIn format) = some (assigner rnum) := by
      rw [assigner?, Fields.ofMap?_treeIn]
      · simp [fields]
      · decide
      · exact List.Sublist.refl _
    rw [ofTree?, other, read]
    rfl

theorem selfTyped_fields (owner : Owner) : ∀ field ∈ owner.fields, field.2.SelfTyped := by
  cases owner <;> simp [fields, Rnum.toValue, Value.SelfTyped.text]

@[simp] theorem fits_fields (owner : Owner) : Value.FieldsFit depth owner.fields := by
  cases owner <;> simp [fields]

theorem inOrder_fields (owner : Owner) :
    InOrder ["lifecycle_class", "assigner_relationship"] owner.fields := by
  cases owner with
  | lifecycle className => exact List.Sublist.cons_cons _ (List.nil_sublist _)
  | assigner rnum => exact List.Sublist.cons _ (List.Sublist.refl _)

end Owner

namespace Declaration

namespace StateKind

/-- A kind is told by its label; the event of a creation state is a field of its own. -/
@[simp] theorem ofTree?_fields (kind : StateKind) :
    ofTree? ((Value.record kind.fields).treeIn .json) = some kind := by
  cases kind <;>
    simp [fields, Value.treeIn, Value.fieldTrees, Format.textTree, ofTree?, Tree.entries?, Fields.ofMap?,
      Fields.enter?, FieldName.ofKey?, FieldName.goesBy, Fields.add?, Fields.find?, Fields.required,
      label?]

theorem selfTyped_fields (kind : StateKind) : ∀ field ∈ kind.fields, field.2.SelfTyped := by
  cases kind <;> simp [fields, Value.SelfTyped.text]

@[simp] theorem fits_fields (kind : StateKind) : Value.FieldsFit depth kind.fields := by
  cases kind <;> simp [fields]

theorem inOrder_fields (kind : StateKind) : InOrder ["type", "event"] kind.fields := by
  cases kind with
  | creation event => exact List.Sublist.refl _
  | normal => exact List.Sublist.cons_cons _ (List.nil_sublist _)
  | deletion => exact List.Sublist.cons_cons _ (List.nil_sublist _)

end StateKind

@[simp] theorem Transition.ofTree?_toValue (transition : Transition) :
    ofTree? (transition.toValue.treeIn format) = some transition := by
  rw [ofTree?, toValue, Fields.ofTree?_treeIn]
  · simp
  · decide
  · exact InOrder.nil.cons.append (.field? "target" _)

@[simp] theorem Transition.fits (transition : Transition) : transition.toValue.Fits (depth + 1) := by
  simp [toValue]

@[simp] theorem State.ofTree?_toValue (state : State) :
    ofTree? (state.toValue.treeIn format) = some state := by
  have kind := StateKind.ofTree?_fields state.kind
  rw [Value.treeIn] at kind
  rw [ofTree?, toValue, List.append_assoc, Fields.Open.ofTree?_treeIn state.kind.inOrder_fields]
  · simp [List.lookup_append, kind]
  · decide
  · exact InOrder.nil.cons.append ((InOrder.field? "activity" _).append InOrder.nil.cons)
  · decide
  · exact state.kind.selfTyped_fields

@[simp] theorem State.fits (state : State) : state.toValue.Fits (depth + 3) := by
  simp [toValue]

@[simp] theorem StateModel.ofTree?_toValue (model : StateModel) :
    ofTree? (model.toValue.treeIn format) = some model := by
  have owner := Owner.ofTree?_fields .json model.owner
  rw [Value.treeIn] at owner
  rw [ofTree?, toValue, Fields.Open.ofTree?_treeIn model.owner.inOrder_fields]
  · simp [owner]
  · decide
  · exact List.Sublist.refl _
  · decide
  · exact model.owner.selfTyped_fields

@[simp] theorem StateModel.fits (model : StateModel) : model.toValue.Fits (depth + 5) := by
  simp [toValue]

/-! ## Whole documents -/

@[simp] theorem Subsystem.ofTree?_toValue (subsystem : Subsystem) :
    ofTree? (subsystem.toValue.treeIn format) = some subsystem := by
  rw [ofTree?, toValue, Fields.ofTree?_treeIn]
  · simp [List.lookup_append]
  · decide
  · exact ((InOrder.nil.cons.append (.field? "alias" _)).append (.field? "domain" _)).append
      InOrder.nil.cons.cons

@[simp] theorem Subsystem.fits (subsystem : Subsystem) : subsystem.toValue.Fits (depth + 7) := by
  simp [toValue]

end Declaration

@[simp] theorem ModelInput.ofTree?_toValue (input : ModelInput) :
    ofTree? (input.toValue.treeIn format) = some input := by
  rw [ofTree?, toValue, Fields.ofTree?_treeIn]
  · simp
  · decide
  · exact List.Sublist.refl _

@[simp] theorem ModelInput.fits (input : ModelInput) : input.toValue.Fits (depth + 9) := by
  simp [toValue]

@[simp] theorem AnalysisOptions.ofTree?_toValue (options : AnalysisOptions) :
    ofTree? (options.toValue.treeIn format) = some options := by
  rw [ofTree?, toValue, Fields.ofTree?_treeIn]
  · simp
  · decide
  · exact List.Sublist.refl _

@[simp] theorem AnalysisOptions.isNull_toValue (options : AnalysisOptions) :
    (options.toValue.treeIn format).isNull = false := by
  simp [toValue]

@[simp] theorem AnalysisOptions.fits (options : AnalysisOptions) : options.toValue.Fits (depth + 1) := by
  simp [toValue]

namespace Project

@[simp] theorem Manifest.ofTree?_toValue (manifest : Manifest) :
    ofTree? (manifest.toValue.treeIn format) = some manifest := by
  rw [ofTree?, toValue, Fields.ofTree?_treeIn]
  · simp [Value.texts, Path.ofTree?]
  · decide
  · exact List.Sublist.refl _

@[simp] theorem Manifest.fits (manifest : Manifest) : manifest.toValue.Fits (depth + 2) := by
  simp [toValue]

end Project

end ClassModel
