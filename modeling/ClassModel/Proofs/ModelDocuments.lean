import ClassModel.Proofs.DeclarationDocuments
import ClassModel.Proofs.SortedTables

/-! # Resolved models are read as they were written

The document of a resolved model says everything about it but for three things, which `Model.Settled`
asks for: an attribute writes no hints, a table of references is read in the order of its numbers, and
a scalar that is listed twice is read once.
-/

namespace ClassModel

open Document
open Document.Schema (InOrder)

variable (format : Format) {depth : Nat}

/-! ## Names of alternatives -/

@[simp] theorem Severity.ofTree?_toValue (severity : Severity) :
    ofTree? (severity.toValue.treeIn format) = some severity := by
  cases severity <;> simp [ofTree?, toValue]

@[simp] theorem Severity.fits (severity : Severity) : severity.toValue.Fits depth := by
  cases severity <;> exact .text

@[simp] theorem Side.ofTree?_toValue (side : Side) : ofTree? (side.toValue.treeIn format) = some side := by
  cases side <;> simp [ofTree?, toValue]

@[simp] theorem Side.fits (side : Side) : side.toValue.Fits depth := by
  cases side <;> exact .text

@[simp] theorem ReferenceKind.ofTree?_toValue (kind : ReferenceKind) :
    ofTree? (kind.toValue.treeIn format) = some kind := by
  cases kind <;> simp [ofTree?, toValue]

@[simp] theorem ReferenceKind.fits (kind : ReferenceKind) : kind.toValue.Fits depth := by
  cases kind <;> exact .text

@[simp] theorem RelationshipKind.ofTree?_toValue (kind : RelationshipKind) :
    ofTree? (kind.toValue.treeIn format) = some kind := by
  cases kind <;> simp [ofTree?, toValue]

@[simp] theorem RelationshipKind.fits (kind : RelationshipKind) : kind.toValue.Fits depth := by
  cases kind <;> exact .text

@[simp] theorem Resolved.StateKind.ofTree?_toValue (kind : Resolved.StateKind) :
    Resolved.StateKind.ofTree? (kind.toValue.treeIn format) = some kind := by
  cases kind <;> simp [ofTree?, toValue]

@[simp] theorem Resolved.StateKind.fits (kind : Resolved.StateKind) : kind.toValue.Fits depth := by
  cases kind <;> exact .text

/-! ## Diagnostics -/

@[simp] theorem Diagnostic.ofTree?_toValue (diagnostic : Diagnostic) :
    ofTree? (diagnostic.toValue.treeIn format) = some diagnostic := by
  rw [ofTree?, toValue, Fields.ofTree?_treeIn]
  · simp
  · decide
  · exact List.Sublist.refl _

@[simp] theorem Diagnostic.fits (diagnostic : Diagnostic) : diagnostic.toValue.Fits (depth + 1) := by
  simp [toValue]

/-! ## Classes -/

namespace Identifiers

theorem ofPairs_groups (identifiers : Identifiers) : ofPairs identifiers.groups = identifiers := by
  ext1 group
  cases first : identifiers.members? .first <;> cases second : identifiers.members? .second <;>
    cases third : identifiers.members? .third <;> cases group <;>
    simp [ofPairs, groups, IdGroup.all, first, second, third]

@[simp] theorem ofTree?_toValue (identifiers : Identifiers) :
    ofTree? (identifiers.toValue.treeIn format) = some identifiers := by
  have groups : Tree.table? IdGroup.ofTree? (Tree.list? Tree.text?)
      ((Value.record (identifiers.groups.map fun entry =>
        (entry.1.label, Value.texts entry.2))).treeIn format) = some identifiers.groups :=
    Tree.table?_treeIn (fun entry _ => IdGroup.ofTree?_toValue format entry.1) (by simp)
  rw [ofTree?, toValue, Fields.ofTree?_treeIn]
  · simp [groups, ofPairs_groups]
  · decide
  · exact List.Sublist.refl _

@[simp] theorem fits (identifiers : Identifiers) : identifiers.toValue.Fits (depth + 3) := by
  simp [toValue]

end Identifiers

@[simp] theorem Navigation.ofTree?_toValue (navigation : Navigation) :
    ofTree? (navigation.toValue.treeIn format) = some navigation := by
  rw [ofTree?, toValue, Fields.ofTree?_treeIn]
  · simp
  · decide
  · exact List.Sublist.refl _

@[simp] theorem Navigation.fits (navigation : Navigation) : navigation.toValue.Fits (depth + 1) := by
  simp [toValue]

namespace AttributeType

/-- A scalar is a text and a union is none. -/
@[simp] theorem ofTree?_toValue (type : AttributeType) :
    ofTree? (type.toValue.treeIn format) = some type := by
  cases type with
  | scalar name => simp [ofTree?, toValue]
  | union members =>
    have typed := Value.typed?_treeIn format (Value.SelfTyped.texts members)
    simp [ofTree?, toValue, typed]

@[simp] theorem isNull_toValue (type : AttributeType) : (type.toValue.treeIn format).isNull = false := by
  cases type <;> simp [toValue]

@[simp] theorem fits (type : AttributeType) : type.toValue.Fits (depth + 1) := by
  cases type <;> simp [toValue]

end AttributeType

namespace Resolved

@[simp] theorem Subsystem.ofTree?_toValue (subsystem : Subsystem) :
    ofTree? (subsystem.toValue.treeIn format) = some subsystem := by
  rw [ofTree?, toValue, Fields.ofTree?_treeIn]
  · simp
  · decide
  · exact List.Sublist.refl _

@[simp] theorem Subsystem.fits (subsystem : Subsystem) : subsystem.toValue.Fits (depth + 1) := by
  simp [toValue]

@[simp] theorem Attribute.ofTree?_toValue {attr : Attribute} (resolved : attr.hints = []) :
    ofTree? (attr.toValue.treeIn format) = some attr := by
  rw [ofTree?, toValue, Fields.ofTree?_treeIn]
  · simp [← resolved]
  · decide
  · exact List.Sublist.refl _

@[simp] theorem Attribute.fits (attr : Attribute) : attr.toValue.Fits (depth + 3) := by
  simp [toValue]

theorem Class.ofTree?_toValue {cls : Class} (resolved : ∀ attr ∈ cls.allAttributes, attr.hints = []) :
    ofTree? (cls.toValue.treeIn format) = some cls := by
  have regular : Tree.list? Attribute.ofTree?
      ((Value.list (cls.attributes.map Attribute.toValue)).treeIn format) = some cls.attributes :=
    Value.list?_treeIn fun attr member =>
      Attribute.ofTree?_toValue format (resolved attr (List.mem_append_left _ member))
  have ignored : Tree.list? Attribute.ofTree?
      ((Value.list (cls.ignoredAttributes.map Attribute.toValue)).treeIn format) =
      some cls.ignoredAttributes :=
    Value.list?_treeIn fun attr member =>
      Attribute.ofTree?_toValue format (resolved attr (List.mem_append_right _ member))
  rw [ofTree?, toValue, Fields.ofTree?_treeIn]
  · simp [regular, ignored]
  · decide
  · exact List.Sublist.refl _

@[simp] theorem Class.fits (cls : Class) : cls.toValue.Fits (depth + 5) := by
  have small : cls.number < UInt64.size := Nat.lt_trans cls.number.isLt (by decide)
  simp [toValue, small]

/-! ## Relationships -/

@[simp] theorem Relationship.ofTree?_toValue (relationship : Relationship) :
    ofTree? (relationship.toValue.treeIn format) = some relationship := by
  have typed := Value.typed?_treeIn format (.record relationship.shape.selfTyped_fields)
  rw [ofTree?, toValue, Fields.ofTree?_treeIn]
  · simp [typed]
  · decide
  · exact List.Sublist.refl _

@[simp] theorem Relationship.fits (relationship : Relationship) :
    relationship.toValue.Fits (depth + 3) := by
  simp [toValue]

end Resolved

@[simp] theorem OrdinalInfo.ofTree?_toValue (info : OrdinalInfo) :
    ofTree? (info.toValue.treeIn format) = some info := by
  rw [ofTree?, toValue, Fields.ofTree?_treeIn]
  · simp
  · decide
  · exact List.Sublist.refl _

@[simp] theorem OrdinalInfo.fits (info : OrdinalInfo) : info.toValue.Fits (depth + 1) := by
  simp [toValue]

/-! ## References -/

@[simp] theorem Formalization.ofTree?_toValue (data : Formalization) :
    ofTree? (data.toValue.treeIn format) = some data := by
  rw [ofTree?, toValue, Fields.ofTree?_treeIn]
  · simp
  · decide
  · exact List.Sublist.refl _

@[simp] theorem Formalization.fits (data : Formalization) : data.toValue.Fits (depth + 2) := by
  simp [toValue]

@[simp] theorem VariantKey.ofTree?_toValue (key : VariantKey) :
    ofTree? (key.toValue.treeIn format) = some key := by
  cases key <;> simp [ofTree?, toValue]

@[simp] theorem VariantKey.fits (key : VariantKey) : key.toValue.Fits (depth + 1) := by
  cases key <;> simp [toValue] <;> decide

@[simp] theorem Variant.ofTree?_toValue (variant : Variant) :
    ofTree? (variant.toValue.treeIn format) = some variant := by
  rw [ofTree?, toValue, Fields.ofTree?_treeIn]
  · simp
  · decide
  · exact List.Sublist.refl _

@[simp] theorem Variant.fits (variant : Variant) : variant.toValue.Fits (depth + 3) := by
  simp [toValue]

@[simp] theorem Formalizations.ofTree?_toValue (data : Formalizations) :
    ofTree? (data.toValue.treeIn format) = some data := by
  cases data <;> simp [ofTree?, toValue]

@[simp] theorem Formalizations.fits (data : Formalizations) : data.toValue.Fits (depth + 5) := by
  cases data <;> simp [toValue] <;> decide

@[simp] theorem Reference.ofTree?_toValue (reference : Reference) :
    ofTree? (reference.toValue.treeIn format) = some reference := by
  rw [ofTree?, toValue, Fields.ofTree?_treeIn]
  · simp
  · decide
  · exact List.Sublist.refl _

@[simp] theorem Reference.fits (reference : Reference) : reference.toValue.Fits (depth + 6) := by
  simp [toValue]

namespace ClassReferences

theorem ofTree?_toValue {references : ClassReferences} (ascending : Table.Ascending references.entries) :
    ofTree? (toValue references |>.treeIn format) = some references := by
  have table : Tree.table? Rnum.ofTree? Reference.ofTree?
      ((Table.toValue references Rnum.text Reference.toValue).treeIn format) = some references.entries :=
    Tree.table?_treeIn (fun entry _ => Rnum.ofTree?_toValue format entry.1) (by simp)
  rw [ofTree?, toValue, Fields.ofTree?_treeIn]
  · simp [table, Table.ofListSorted_entries ascending]
  · decide
  · exact List.Sublist.refl _

@[simp] theorem fits (references : ClassReferences) : (toValue references).Fits (depth + 8) := by
  simp [toValue]

end ClassReferences

namespace ReferentialTable

theorem ofTree?_toValue {table : ReferentialTable} (ascending : table.Ascending) :
    ofTree? (table.toValue.treeIn format) = some table := by
  have classes : Table.byName? ClassReferences.ofTree?
      ((table.classes.toValue id ClassReferences.toValue).treeIn format) = some table.classes :=
    Table.byName?_toValue fun entry member => ClassReferences.ofTree?_toValue format (ascending entry member)
  rw [ofTree?, toValue, Fields.ofTree?_treeIn]
  · simp [classes]
  · decide
  · exact List.Sublist.refl _

@[simp] theorem fits (table : ReferentialTable) : table.toValue.Fits (depth + 10) := by
  simp [toValue]

end ReferentialTable

/-! ## Types -/

@[simp] theorem UnionType.ofTree?_toValue (union : UnionType) :
    ofTree? (union.toValue.treeIn format) = some union := by
  rw [ofTree?, toValue, Fields.ofTree?_treeIn]
  · simp
  · decide
  · exact List.Sublist.refl _

@[simp] theorem UnionType.fits (union : UnionType) : union.toValue.Fits (depth + 2) := by
  simp [toValue]

theorem TypeTable.ofTree?_toValue {table : TypeTable} (distinct : table.scalars.Nodup) :
    ofTree? (table.toValue.treeIn format) = some table := by
  rw [ofTree?, toValue, Fields.ofTree?_treeIn]
  · simp [eraseDups_of_nodup distinct]
  · decide
  · exact List.Sublist.refl _

@[simp] theorem TypeTable.fits (table : TypeTable) : table.toValue.Fits (depth + 4) := by
  simp [toValue]

/-! ## State models -/

namespace Outcome

/-- An outcome is told by its label, which stands among its fields. -/
@[simp] theorem ofTree?_toValue (outcome : Outcome) :
    ofTree? (outcome.toValue.treeIn format) = some outcome := by
  cases outcome <;>
    simp [toValue, Value.treeIn, Value.fieldTrees, ofTree?, isLabelKey, ofFields?, Tree.typedEntries?,
      Fields.ofTree?, Fields.enter?, FieldName.ofKey?, FieldName.goesBy, Fields.add?, Fields.find?,
      Fields.required, ofFields?.unless?]

@[simp] theorem fits (outcome : Outcome) : outcome.toValue.Fits (depth + 1) := by
  cases outcome <;> simp [toValue]

end Outcome

@[simp] theorem Creation.ofTree?_toValue (creation : Creation) :
    ofTree? (creation.toValue.treeIn format) = some creation := by
  rw [ofTree?, toValue, Fields.ofTree?_treeIn]
  · simp
  · decide
  · exact List.Sublist.refl _

@[simp] theorem Creation.fits (creation : Creation) : creation.toValue.Fits (depth + 1) := by
  simp [toValue]

@[simp] theorem InitialState.ofTree?_toValue (initial : InitialState) :
    ofTree? (initial.toValue.treeIn format) = some initial := by
  rw [ofTree?, toValue, Fields.ofTree?_treeIn]
  · simp [OutcomeTable.toValue]
  · decide
  · exact List.Sublist.refl _

@[simp] theorem InitialState.isNull_toValue (initial : InitialState) :
    (initial.toValue.treeIn format).isNull = false := by
  simp [toValue]

@[simp] theorem InitialState.fits (initial : InitialState) : initial.toValue.Fits (depth + 3) := by
  simp [toValue, OutcomeTable.toValue]

namespace Resolved

@[simp] theorem State.ofTree?_toValue (state : State) :
    ofTree? (state.toValue.treeIn format) = some state := by
  rw [ofTree?, toValue, Fields.ofTree?_treeIn]
  · simp [OutcomeTable.toValue]
  · decide
  · exact List.Sublist.refl _

@[simp] theorem State.fits (state : State) : state.toValue.Fits (depth + 3) := by
  simp [toValue, OutcomeTable.toValue]

@[simp] theorem StateModel.ofTree?_toValue (model : StateModel) :
    ofTree? (model.toValue.treeIn format) = some model := by
  have owner := Value.typed?_treeIn format (.record model.owner.selfTyped_fields)
  rw [ofTree?, toValue, Fields.ofTree?_treeIn]
  · simp [Owner.toValue, owner]
  · decide
  · exact List.Sublist.refl _

@[simp] theorem StateModel.fits (model : StateModel) : model.toValue.Fits (depth + 5) := by
  simp [toValue, Owner.toValue]

end Resolved

/-! ## The model -/

namespace Model

/-- A model whose document says everything about it. -/
structure Settled (model : Model) : Prop where
  hints : ∀ entry ∈ model.classes.entries, ∀ attr ∈ entry.2.allAttributes, attr.hints = []
  references : model.referential.Ascending
  scalars : model.types.scalars.Nodup

theorem ofTree?_toValue {model : Model} (settled : model.Settled) :
    ofTree? (model.toValue.treeIn format) = some model := by
  have classes : Table.byName? Resolved.Class.ofTree?
      ((model.classes.toValue id Resolved.Class.toValue).treeIn format) = some model.classes :=
    Table.byName?_toValue fun entry member =>
      Resolved.Class.ofTree?_toValue format (settled.hints entry member)
  have referential := ReferentialTable.ofTree?_toValue format settled.references
  have types := TypeTable.ofTree?_toValue format settled.scalars
  rw [ofTree?, toValue, Fields.ofTree?_treeIn]
  · simp [classes, referential, types]
  · decide
  · exact List.Sublist.refl _

@[simp] theorem fits (model : Model) : model.toValue.Fits (depth + 11) := by
  simp [toValue]

end Model

end ClassModel
