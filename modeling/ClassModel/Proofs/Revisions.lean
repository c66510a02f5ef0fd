import ClassModel.Proofs.Records
import ClassModel.Proofs.TypeAgreement
import ClassModel.Proofs.UnseenChanges

/-! # Revised renames and member lists

Renames only matter to the layout of their own class, and member lists only to types. What is worked out
before references are matched comes out of an input with revised renames and member lists as it does of the
input itself, but for the revision, and fails alike. So do the ordinals and the state models.
-/

namespace ClassModel

/-- A revision of the renames and of the member lists that attributes declare. -/
structure Revision where
  /-- The renames instead of the given ones, by the names of the class and the attribute. -/
  renames : Name → Name → List Rename → List Rename
  union : Option (List Name) → Option (List Name)

namespace Declaration

def Attribute.revise (revision : Revision) (className : Name) (attr : Attribute) : Attribute :=
  { attr with
    union := revision.union attr.union
    renames := revision.renames className attr.name attr.renames }

def Class.revise (revision : Revision) (cls : Class) : Class :=
  { cls with
    attributes := cls.attributes.map (.revise revision cls.name)
    ignoredAttributes := cls.ignoredAttributes.map (.revise revision cls.name) }

end Declaration

/-- The input with the attributes of all classes revised. -/
def ModelInput.revise (revision : Revision) (input : ModelInput) : ModelInput :=
  { input with
    subsystems := input.subsystems.map fun subsystem =>
      { subsystem with classes := subsystem.classes.map (.revise revision) } }

namespace Resolved

def Attribute.revise (revision : Revision) (className : Name) (attr : Attribute) : Attribute :=
  { attr with
    union := revision.union attr.union
    renames := revision.renames className attr.name attr.renames }

def Class.revise (revision : Revision) (cls : Class) : Class :=
  cls.mapAttributes (.revise revision cls.name)

end Resolved

/-- The classes of a table with all their attributes revised. -/
def Table.reviseClasses (revision : Revision) (classes : Table Name Resolved.Class) :
    Table Name Resolved.Class :=
  classes.mapValues fun _ => .revise revision

/-- The model with the attributes of all classes revised. -/
def Model.revise (revision : Revision) (model : Model) : Model :=
  { model with classes := model.classes.reviseClasses revision }

variable (revision : Revision)

namespace Resolved.Class

theorem isUnseen_revise : IsUnseen (revise revision) :=
  ⟨fun _ => rfl, fun _ => rfl, fun _ => List.map_map, fun _ => rfl⟩

theorem allAttributes_revise (cls : Class) :
    (cls.revise revision).allAttributes = cls.allAttributes.map (.revise revision cls.name) :=
  List.map_append.symm

/-- A class may be revised before or after its declaration is resolved. -/
theorem ofDeclaration_revise (cls : Declaration.Class) (number : Nat) (subsystem : Name) :
    ofDeclaration (cls.revise revision) number subsystem =
      (ofDeclaration cls number subsystem).revise revision := by
  unfold ofDeclaration revise mapAttributes Declaration.Class.revise Identifiers.ofAttributes
  simp only [List.map_map]
  rfl

end Resolved.Class

namespace ModelInput

theorem classDeclarations_revise (input : ModelInput) : (input.revise revision).classDeclarations =
    input.classDeclarations.map fun declaration => (declaration.1, declaration.2.revise revision) := by
  simp [classDeclarations, revise, List.flatMap_map, List.map_flatMap, Function.comp_def]

theorem relationshipDeclarations_revise (input : ModelInput) :
    (input.revise revision).relationshipDeclarations = input.relationshipDeclarations := by
  simp [relationshipDeclarations, revise, List.flatMap_map]

end ModelInput

namespace Merged

def revise (merged : Merged) : Merged :=
  { merged with classes := merged.classes.reviseClasses revision }

def ClassRegister.revise (register : ClassRegister) : ClassRegister :=
  { register with classes := register.classes.reviseClasses revision }

theorem ClassRegister.enter_revise (register : ClassRegister) (into : Name) (cls : Declaration.Class) :
    (register.revise revision).enter into (cls.revise revision) =
      (register.enter into cls).revise revision := by
  have known : (register.revise revision).classes.contains cls.name = register.classes.contains cls.name :=
    Table.contains_mapValues ..
  unfold enter
  rw [show (cls.revise revision).name = cls.name from rfl, known]
  split
  · rfl
  · unfold revise Table.reviseClasses
    rw [Resolved.Class.ofDeclaration_revise, Table.mapValues_insert]
    simp [Table.size, Table.mapValues]

theorem registerClass_revise (policy : ImportPolicy) (owners : Table Name Name) (subsystems : List Name)
    (register : ClassRegister) (declaration : Name × Declaration.Class) :
    registerClass policy owners subsystems (register.revise revision)
        (declaration.1, declaration.2.revise revision) =
      (registerClass policy owners subsystems register declaration).map (·.revise revision) := by
  obtain ⟨into, cls⟩ := declaration
  have stands : standing owners subsystems into (cls.revise revision) =
      standing owners subsystems into cls := rfl
  unfold registerClass
  dsimp only
  rw [stands]
  cases standing owners subsystems into cls with
  | error failure => rfl
  | ok role =>
    cases role with
    | own => exact congrArg _ (ClassRegister.enter_revise ..)
    | known => rfl
    | lateBound source =>
      cases policy with
      | deny => rfl
      | warn =>
        exact congrArg _ (ClassRegister.enter_revise revision (register.warn cls.name source into) into cls)

/-- A revised input is brought together as the input itself. -/
theorem ofInput_revise (input : ModelInput) (options : AnalysisOptions) :
    ofInput (input.revise revision) options = (ofInput input options).map (·.revise revision) := by
  have subsystems : (input.revise revision).subsystems.foldlM registerSubsystem .empty =
      input.subsystems.foldlM registerSubsystem .empty :=
    List.foldlM_map
  have owners : (input.revise revision).classDeclarations.foldlM registerOwner .empty =
      input.classDeclarations.foldlM registerOwner .empty := by
    rw [input.classDeclarations_revise]
    exact List.foldlM_map
  have registers : ∀ owners subsystems, (input.revise revision).classDeclarations.foldlM
      (registerClass options.importPolicy owners subsystems) {} =
        (input.classDeclarations.foldlM (registerClass options.importPolicy owners subsystems) {}).map
          (·.revise revision) := by
    intro owners subsystems
    rw [input.classDeclarations_revise, List.foldlM_map]
    have ran : input.classDeclarations.foldlM (fun register declaration =>
        registerClass options.importPolicy owners subsystems register
          (declaration.1, declaration.2.revise revision)) (ClassRegister.revise revision {}) =
        (input.classDeclarations.foldlM (registerClass options.importPolicy owners subsystems) {}).map
          (·.revise revision) :=
      foldlM_map (fun register declaration => registerClass_revise revision _ _ _ register declaration) _ {}
    exact ran
  have faults : ∀ classes : Table Name Resolved.Class,
      relationshipFault? (classes.reviseClasses revision) = relationshipFault? classes := by
    intro classes
    funext relationship
    simp only [relationshipFault?, Table.reviseClasses, Table.contains_mapValues]
  unfold ofInput
  rw [subsystems, owners, input.relationshipDeclarations_revise]
  refine bind_eq_map_bind fun known => bind_eq_map_bind fun owners => bind_eq_map_bind fun relationships => ?_
  rw [registers, map_bind_eq]
  refine bind_eq_map_bind fun register => ?_
  dsimp only [ClassRegister.revise]
  rw [faults]
  split <;> rfl

end Merged

namespace Resolved

/-- Hints are pinned before or after a revision. -/
theorem Attribute.navigate_revise (className : Name) (endpoints : List Endpoint) (attr : Attribute) :
    (attr.revise revision className).navigate className endpoints =
      (attr.navigate className endpoints).map (.revise revision className) :=
  bind_eq_map_bind fun _ => rfl

theorem Class.navigate_revise (cls : Class) (endpoints : List Endpoint) :
    (cls.revise revision).navigate endpoints = (cls.navigate endpoints).map (.revise revision) := by
  have all : ∀ attributes : List Attribute,
      (attributes.map (.revise revision cls.name)).mapM (Attribute.navigate cls.name endpoints) =
        (attributes.mapM (Attribute.navigate cls.name endpoints)).map
          (·.map (.revise revision cls.name)) := by
    intro attributes
    rw [List.mapM_map]
    exact mapM_map (fun attr => attr.navigate_revise revision cls.name endpoints) attributes
  change ((cls.attributes.map (.revise revision cls.name)).mapM (Attribute.navigate cls.name endpoints) >>=
    fun attributes =>
      (cls.ignoredAttributes.map (.revise revision cls.name)).mapM (Attribute.navigate cls.name endpoints) >>=
        fun ignoredAttributes => .ok { cls with attributes, ignoredAttributes }) = _
  rw [all, all, map_bind_eq]
  refine bind_eq_map_bind fun attributes => ?_
  rw [map_bind_eq]
  exact bind_eq_map_bind fun ignored => rfl

end Resolved

theorem navigateClasses_revise (relationships : Table Rnum Resolved.Relationship)
    (classes : Table Name Resolved.Class) :
    navigateClasses relationships (classes.reviseClasses revision) =
      (navigateClasses relationships classes).map (·.reviseClasses revision) :=
  Table.mapValuesM_mapValues (fun _ cls => cls.navigate_revise revision _) classes

section Later

variable (classes : Table Name Resolved.Class)

/-- Ordinals depend neither on renames nor on member lists. -/
theorem ordinalTable_revise (relationships : Table Rnum Resolved.Relationship) :
    ordinalTable relationships (classes.reviseClasses revision) = ordinalTable relationships classes := by
  have ranks : ∀ (relationship : Resolved.Relationship) (cls : Resolved.Class),
      OrdinalInfo.ofClass relationship (cls.revise revision) = OrdinalInfo.ofClass relationship cls := by
    intro relationship cls
    have bound : ∀ rnum, OrdinalInfo.boundBy (cls.revise revision) rnum = OrdinalInfo.boundBy cls rnum := by
      intro rnum
      unfold OrdinalInfo.boundBy
      rw [Resolved.Class.allAttributes_revise, List.filter_map, List.map_map]
      rfl
    have ranked : ∀ rnum, OrdinalInfo.rankedBy (cls.revise revision) rnum = OrdinalInfo.rankedBy cls rnum := by
      intro rnum
      unfold OrdinalInfo.rankedBy
      rw [Resolved.Class.allAttributes_revise, List.filter_map, List.map_map]
      rfl
    unfold OrdinalInfo.ofClass
    rw [bound, ranked]
    rfl
  have outcomes : OrdinalInfo.outcome? (classes.reviseClasses revision) = OrdinalInfo.outcome? classes := by
    funext relationship
    have there : OrdinalInfo.classOf? (classes.reviseClasses revision) relationship =
        (OrdinalInfo.classOf? classes relationship).map (.revise revision) := by
      unfold OrdinalInfo.classOf?
      cases relationship.perspective? .passive with
      | none => rfl
      | some passive => exact Table.get?_mapValues ..
    unfold OrdinalInfo.outcome?
    rw [there, Option.map_map, show OrdinalInfo.ofClass relationship ∘ Resolved.Class.revise revision =
      OrdinalInfo.ofClass relationship from funext (ranks relationship)]
  have enters : OrdinalInfo.enter (classes.reviseClasses revision) = OrdinalInfo.enter classes := by
    funext known relationship
    rw [OrdinalInfo.enter_eq, OrdinalInfo.enter_eq, outcomes]
  unfold ordinalTable
  rw [enters]

/-- What is seen of an attribute once it is revised is seen of the attribute of a slot. -/
theorem slotAttribute?_revise {α : Type} {view revised : Resolved.Attribute → α}
    (alike : ∀ className attr, view (attr.revise revision className) = revised attr) (key : SlotKey) :
    (slotAttribute? (classes.reviseClasses revision) key).map view =
      (slotAttribute? classes key).map revised := by
  unfold slotAttribute?
  rw [Table.reviseClasses, Table.get?_mapValues]
  cases classes.get? key.1 with
  | none => rfl
  | some cls =>
    rw [Option.map_some, Option.bind_some, Option.bind_some, Resolved.Class.attribute?,
      Resolved.Class.allAttributes_revise, List.find?_map, Option.map_map]
    have same : view ∘ Resolved.Attribute.revise revision cls.name = revised := funext (alike cls.name)
    rw [same]
    rfl

/-- State models find the same owners. -/
theorem Declaration.StateModel.resolve_revise (relationships : Table Rnum Resolved.Relationship) :
    resolve (classes.reviseClasses revision) relationships = resolve classes relationships := by
  funext model
  simp only [resolve, ownerFault?, Table.reviseClasses, Table.contains_mapValues]

end Later

section Matching

variable (keeps : ∀ className attr renames, revision.renames className attr renames = renames)

include keeps

/-- Without other renames a class has the layout that it has. -/
theorem Layout.ofClass_revise (cls : Resolved.Class) : ofClass (cls.revise revision) = ofClass cls := by
  have step : (fun layout (attr : Resolved.Attribute) =>
      addAttribute cls.name layout (attr.revise revision cls.name)) = addAttribute cls.name := by
    funext layout attr
    unfold addAttribute Resolved.Attribute.revise
    dsimp only
    rw [keeps]
    rfl
  unfold ofClass
  rw [Resolved.Class.allAttributes_revise, List.foldlM_map]
  exact congrArg (fun step => List.foldlM step {} cls.allAttributes) step

/-- References depend on no member lists. -/
theorem References.ofClasses_revise (relationships : Table Rnum Resolved.Relationship)
    (classes : Table Name Resolved.Class) :
    ofClasses relationships (classes.reviseClasses revision) = ofClasses relationships classes := by
  have alike : ∀ cls, ClassMatches.ofClass (classes.reviseClasses revision) relationships
      (cls.revise revision) = ClassMatches.ofClass classes relationships cls := by
    intro cls
    have ignored : (cls.revise revision).ignoredAttributes.map (·.name) =
        cls.ignoredAttributes.map (·.name) := List.map_map
    unfold ClassMatches.ofClass
    rw [Layout.ofClass_revise revision keeps, ignored]
    simp only [Table.reviseClasses,
      ClassMatches.matchOver_mapValues (Resolved.Class.isUnseen_revise revision) classes relationships cls]
    rfl
  have keys : (classes.reviseClasses revision).keys = classes.keys := Table.keys_mapValues ..
  have values : (classes.reviseClasses revision).values = classes.values.map (.revise revision) :=
    Table.values_mapValues ..
  unfold ofClasses
  rw [keys, values, List.mapM_map]
  simp only [Function.comp_def, alike]

end Matching

namespace Typing

variable (typing : Typing)

/-- Types may be found before or after a revision. -/
theorem annotate_revise (cls : Resolved.Class) :
    typing.annotate (cls.revise revision) = (typing.annotate cls).revise revision := by
  rw [annotate_eq, annotate_eq]
  unfold Resolved.Class.revise Resolved.Class.mapAttributes
  simp only [List.map_map]
  rfl

theorem uses_revise (classes : Table Name Resolved.Class) :
    typing.uses (classes.reviseClasses revision).values = typing.uses classes.values := by
  unfold uses Table.reviseClasses
  rw [Table.values_mapValues, List.flatMap_map]
  simp only [Resolved.Class.allAttributes_revise, List.filterMap_map]
  rfl

/-- Where a revised model has references and types, and resembles a model with types, it has the same types. -/
theorem exists_revise {relationships : Table Rnum Resolved.Relationship} {classes : Table Name Resolved.Class}
    (sound : WellFormed relationships classes)
    (otherSound : WellFormed relationships (classes.reviseClasses revision)) {references others : References}
    (matched : References.ofClasses relationships classes = .ok references)
    (rematched : References.ofClasses relationships (classes.reviseClasses revision) = .ok others)
    (resemble : References.Resemble classes (classes.reviseClasses revision) references others)
    (consistent : others.Consistent (classes.reviseClasses revision)) {typing : Typing}
    (typed : ofReferences classes references = .ok typing) {types : TypeTable}
    (tabled : typing.typeTable classes.values = .ok types) :
    ∃ other, ofReferences (classes.reviseClasses revision) others = .ok other ∧
      other.typeTable (classes.reviseClasses revision).values = .ok types ∧
      (classes.reviseClasses revision).mapValues (fun _ cls => other.annotate cls) =
        (classes.mapValues fun _ cls => typing.annotate cls).reviseClasses revision := by
  obtain ⟨other, _, retyped, _, _, _, resolved⟩ :=
    exists_of_resemble resemble sound otherSound matched rematched consistent typed tabled
  refine ⟨other, retyped, ?_, ?_⟩
  · have uses : other.uses (classes.reviseClasses revision).values = typing.uses classes.values :=
      (other.uses_revise revision classes).trans (uses_congr sound.className resolved).symm
    rw [typeTable, uses]
    exact tabled
  · refine Table.ext ?_
    change (classes.entries.map _).map _ = (classes.entries.map _).map _
    rw [List.map_map, List.map_map]
    refine List.map_congr_left fun ⟨name, cls⟩ listed => ?_
    have known := Table.get?_eq_some_iff.mpr listed
    obtain rfl := sound.className name cls known
    dsimp only [Function.comp_apply]
    rw [annotate_revise, annotate_congr resolved known]

end Typing

/-- The analysis of a revised input, if it has references and types and resembles the analysis of the input,
finds the revised model, but for the references. -/
theorem Analysis.exists_revise {input : ModelInput} {options : AnalysisOptions} {analysis : Analysis}
    (success : ofInput input options = .ok analysis) {references : References}
    (rematched : References.ofClasses analysis.merged.relationships
      (analysis.classes.reviseClasses revision) = .ok references)
    (resemble : References.Resemble analysis.classes (analysis.classes.reviseClasses revision)
      analysis.references references)
    (consistent : references.Consistent (analysis.classes.reviseClasses revision)) :
    ∃ other, ofInput (input.revise revision) options = .ok other ∧
      other.model = { analysis.model.revise revision with referential := references.referential } := by
  obtain ⟨merging, navigating, matched, ranked, typed, tabled, modelled⟩ := ofInput_eq_ok_iff.mp success
  have sound := (Merged.wellFormed merging).navigate navigating
  have remerging : Merged.ofInput (input.revise revision) options = .ok (analysis.merged.revise revision) :=
    (Merged.ofInput_revise revision input options).trans (congrArg _ merging)
  have renavigating : navigateClasses analysis.merged.relationships
      (analysis.merged.classes.reviseClasses revision) = .ok (analysis.classes.reviseClasses revision) :=
    (navigateClasses_revise revision _ _).trans (congrArg _ navigating)
  have otherSound := (Merged.wellFormed remerging).navigate renavigating
  obtain ⟨typing, retyped, retabled, annotated⟩ := Typing.exists_revise revision sound otherSound matched
    rematched resemble consistent typed tabled
  have remodelled : (input.revise revision).stateModels.mapM (Declaration.StateModel.resolve
      (analysis.merged.classes.reviseClasses revision) analysis.merged.relationships) =
        .ok analysis.stateModels := by
    rw [Declaration.StateModel.resolve_revise]
    exact modelled
  let other : Analysis :=
    { merged := analysis.merged.revise revision
      classes := analysis.classes.reviseClasses revision
      references, ordinals := analysis.ordinals, typing, types := analysis.types
      stateModels := analysis.stateModels }
  refine ⟨other, ofInput_eq_ok_iff.mpr ⟨remerging, renavigating, rematched,
    (ordinalTable_revise revision _ _).trans ranked, retyped, retabled, remodelled⟩, ?_⟩
  unfold Model.revise model
  dsimp only [other]
  rw [annotated]
  rfl

end ClassModel
