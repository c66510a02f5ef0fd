import ClassModel.Proofs.Recording
import ClassModel.Proofs.Registration

/-! # What a model keeps of its declarations

The classes of a model are the declared ones, each with what its one declaration says. Pinning hints
replaces them by navigations, typing adds types, and neither touches anything else, nor the order of the
classes or their numbers.
-/

namespace ClassModel

/-- An attribute that says what its declaration says. -/
structure Resolved.Attribute.Restates (attr : Attribute) (declaration : Declaration.Attribute) : Prop where
  name : attr.name = declaration.name
  scalar : attr.scalar = declaration.scalar
  union : attr.union = declaration.union
  identifiers : attr.identifiers = declaration.identifiers
  relationships : attr.relationships = declaration.relationships
  unionRelationships : attr.unionRelationships = declaration.unionRelationships
  renames : attr.renames = declaration.renames
  ranking : attr.ranking = declaration.ranking

/-- The identifier groups that attributes declare: a group lists its attributes in order, each once, and
without any there is the group I alone. -/
structure Identifiers.Restates (identifiers : Identifiers) (attributes : List Declaration.Attribute) : Prop where
  defined : ∀ group, (∃ members, identifiers.members? group = some members) ↔
    (∃ attr ∈ attributes, group ∈ attr.identifiers) ∨
      (group = .first ∧ ∀ attr ∈ attributes, attr.identifiers = [])
  members : ∀ group members, identifiers.members? group = some members →
    members = ((attributes.filter (group ∈ ·.identifiers)).map (·.name)).eraseDups

/-- A class that says what its declaration in a subsystem says. -/
structure Resolved.Class.Restates (cls : Class) (declaration : Name × Declaration.Class) : Prop where
  name : cls.name = declaration.2.name
  subsystem : cls.subsystem = declaration.1
  attributes : List.Forall₂ Attribute.Restates cls.attributes declaration.2.attributes
  ignoredAttributes : List.Forall₂ Attribute.Restates cls.ignoredAttributes declaration.2.ignoredAttributes
  identifiers : cls.identifiers.Restates declaration.2.attributes

theorem Identifiers.restates_ofAttributes (attributes : List Declaration.Attribute) :
    (Identifiers.ofAttributes attributes).Restates attributes := by
  have unlisted : (attributes.map fun attr => (attr.name, attr.identifiers)).all (·.2.isEmpty) = true ↔
      ∀ attr ∈ attributes, attr.identifiers = [] := by
    simp
  have listed : ∀ group,
      (attributes.map fun attr => (attr.name, attr.identifiers)).any (·.2.contains group) = true ↔
        ∃ attr ∈ attributes, group ∈ attr.identifiers := by
    simp
  have collected : ∀ group, collect (attributes.map fun attr => (attr.name, attr.identifiers)) group =
      ((attributes.filter (group ∈ ·.identifiers)).map (·.name)).eraseDups := by
    simp [collect, List.filter_map, Function.comp_def]
  unfold ofAttributes ofMemberships
  simp only [unlisted]
  split
  · rename_i nothing
    have none : ∀ group, ∀ attr ∈ attributes, group ∉ attr.identifiers := by
      intro group attr member
      simp [nothing attr member]
    constructor
    · intro group
      have absent : ¬ ∃ attr ∈ attributes, group ∈ attr.identifiers := by simpa using none group
      rw [or_iff_right absent, and_iff_left nothing]
      simp
    · intro group members found
      have empty : attributes.filter (group ∈ ·.identifiers) = [] := by simpa using none group
      simp only [Option.ite_none_right_eq_some, Option.some.injEq] at found
      rw [empty, ← found.2]
      rfl
  · rename_i something
    constructor
    · intro group
      simp only [Option.ite_none_right_eq_some, Option.some.injEq, exists_and_left, exists_eq', and_true,
        listed, something, and_false, or_false]
    · intro group members found
      simp only [Option.ite_none_right_eq_some, Option.some.injEq] at found
      rw [← found.2, collected]

namespace Resolved

theorem Attribute.restates_ofDeclaration (declaration : Declaration.Attribute) :
    (Attribute.ofDeclaration declaration).Restates declaration :=
  ⟨rfl, rfl, rfl, rfl, rfl, rfl, rfl, rfl⟩

theorem Attribute.Restates.navigate {attr navigated : Attribute} {declaration : Declaration.Attribute}
    (restates : attr.Restates declaration) {className : Name} {endpoints : List Endpoint}
    (success : attr.navigate className endpoints = .ok navigated) : navigated.Restates declaration := by
  obtain ⟨_, _, rfl⟩ := Attribute.navigate_eq_ok_iff.mp success
  obtain ⟨_, _, _, _, _, _, _, _⟩ := restates
  constructor <;> assumption

theorem Class.restates_ofDeclaration (declaration : Name × Declaration.Class) (number : Nat) :
    (Class.ofDeclaration declaration.2 number declaration.1).Restates declaration := by
  refine ⟨rfl, rfl, ?_, ?_, Identifiers.restates_ofAttributes _⟩
  · rw [ofDeclaration, List.forall₂_map_left_iff, List.forall₂_same]
    exact fun attr _ => Attribute.restates_ofDeclaration attr
  · rw [ofDeclaration, List.forall₂_map_left_iff, List.forall₂_same]
    exact fun attr _ => Attribute.restates_ofDeclaration attr

theorem Class.Restates.navigate {cls navigated : Class} {declaration : Name × Declaration.Class}
    (restates : cls.Restates declaration) {endpoints : List Endpoint}
    (success : cls.navigate endpoints = .ok navigated) : navigated.Restates declaration := by
  obtain ⟨attributes, ignored, regular, others, rfl⟩ := Class.navigate_eq_ok_iff.mp success
  refine ⟨restates.name, restates.subsystem, ?_, ?_, restates.identifiers⟩
  · refine (forall₂_of_common regular.flip restates.attributes.flip).imp ?_
    rintro _ _ ⟨attr, ran, known⟩
    exact Attribute.Restates.navigate known ran
  · refine (forall₂_of_common others.flip restates.ignoredAttributes.flip).imp ?_
    rintro _ _ ⟨attr, ran, known⟩
    exact Attribute.Restates.navigate known ran

theorem Class.Restates.annotate {cls : Class} {declaration : Name × Declaration.Class}
    (restates : cls.Restates declaration) (typing : Typing) : (typing.annotate cls).Restates declaration := by
  have kept : ∀ (attr : Attribute) declared type, attr.Restates declared →
      { attr with type }.Restates declared := by
    rintro _ _ _ ⟨_, _, _, _, _, _, _, _⟩
    constructor <;> assumption
  rw [Typing.annotate_eq]
  refine ⟨restates.name, restates.subsystem, ?_, ?_, restates.identifiers⟩
  · rw [mapAttributes, List.forall₂_map_left_iff]
    exact restates.attributes.imp fun attr declared same => kept attr declared _ same
  · rw [mapAttributes, List.forall₂_map_left_iff]
    exact restates.ignoredAttributes.imp fun attr declared same => kept attr declared _ same

end Resolved

/-- The classes whose hints are pinned restate the first declarations of their names that bring classes in. -/
theorem Merged.restates_entering {input : ModelInput} {options : AnalysisOptions} {merged : Merged}
    (merging : ofInput input options = .ok merged) {classes : Table Name Resolved.Class}
    (navigating : navigateClasses merged.relationships merged.classes = .ok classes) (className : Name) :
    Option.Rel Resolved.Class.Restates (classes.get? className)
      (input.entering.find? (·.2.name = className)) := by
  obtain ⟨owners, _, owned, _, entered, _⟩ := ofInput_eq_ok_iff.mp merging
  obtain ⟨lists, _⟩ := registers_of_foldlM (owners_of_registered owned) entered
  cases known : classes.get? className with
  | none =>
    have absent : className ∉ merged.classes.keys := by
      rw [← Table.keys_of_mapValuesM navigating, ← Table.get?_eq_none_iff, known]
    have none : input.entering.find? (·.2.name = className) = none := by
      rw [lists.names, List.mem_eraseDups] at absent
      exact List.find?_eq_none.mpr fun declaration listed named =>
        absent (List.mem_map.mpr ⟨declaration, listed, of_decide_eq_true named⟩)
    rw [none]
    exact .none
  | some cls =>
    obtain ⟨original, stored, navigated⟩ := get?_navigateClasses navigating known
    obtain ⟨declaration, first, _, same⟩ := lists.classes className original stored
    have restates : original.Restates declaration :=
      same ▸ Resolved.Class.restates_ofDeclaration declaration _
    rw [ModelInput.entering, first]
    exact .some (restates.navigate navigated)

/-- Pinning keeps the classes in their order with their numbers. -/
theorem numbers_navigateClasses {relationships : Table Rnum Resolved.Relationship}
    {merged classes : Table Name Resolved.Class}
    (success : navigateClasses relationships merged = .ok classes) :
    classes.values.map (·.number) = merged.values.map (·.number) := by
  have pairs := Table.mapEntries_eq_ok_iff.mp (Table.mapValuesM_eq_ok_iff.mp success)
  rw [Table.values, Table.values, List.map_map, List.map_map]
  refine map_eq_of_forall₂ pairs ?_
  rintro ⟨_, cls⟩ ⟨_, result⟩ ⟨_, ran⟩
  obtain ⟨_, _, _, _, rfl⟩ := Resolved.Class.navigate_eq_ok_iff.mp ran
  rfl

/-- The classes of the resolved model have the numbers that they got when they were merged. -/
theorem Analysis.numbers_model {analysis : Analysis}
    (navigating : navigateClasses analysis.merged.relationships analysis.merged.classes =
      .ok analysis.classes) :
    analysis.model.classes.values.map (·.number) = analysis.merged.classes.values.map (·.number) :=
  calc analysis.model.classes.values.map (·.number)
    _ = analysis.classes.values.map (·.number) := by
      rw [model, Table.values, Table.values, Table.mapValues, List.map_map, List.map_map, List.map_map]
      rfl
    _ = analysis.merged.classes.values.map (·.number) := numbers_navigateClasses navigating

namespace ModelInput

/-- A class declaration without its attributes if it is an import of a class that the run declares. -/
def withoutCopy (input : ModelInput) (cls : Declaration.Class) : Declaration.Class :=
  if cls.isImport && input.declares cls.name then { cls with attributes := [], ignoredAttributes := [] }
  else cls

/-- The input without the attributes that imports repeat of classes which the run declares. -/
def withoutCopies (input : ModelInput) : ModelInput :=
  { input with
    subsystems := input.subsystems.map fun subsystem =>
      { subsystem with classes := subsystem.classes.map input.withoutCopy } }

variable (input : ModelInput)

theorem name_withoutCopy (cls : Declaration.Class) : (input.withoutCopy cls).name = cls.name := by
  unfold withoutCopy
  split <;> rfl

theorem importedFrom_withoutCopy (cls : Declaration.Class) :
    (input.withoutCopy cls).importedFrom = cls.importedFrom := by
  unfold withoutCopy
  split <;> rfl

theorem classDeclarations_withoutCopies : input.withoutCopies.classDeclarations =
    input.classDeclarations.map fun declaration => (declaration.1, input.withoutCopy declaration.2) := by
  simp [classDeclarations, withoutCopies, List.flatMap_map, List.map_flatMap, Function.comp_def]

theorem relationshipDeclarations_withoutCopies :
    input.withoutCopies.relationshipDeclarations = input.relationshipDeclarations := by
  simp [relationshipDeclarations, withoutCopies, List.flatMap_map]

end ModelInput

namespace Merged

variable {input : ModelInput}

theorem registerOwner_withoutCopy (owners : Table Name Name) (declaration : Name × Declaration.Class) :
    registerOwner owners (declaration.1, input.withoutCopy declaration.2) =
      registerOwner owners declaration := by
  simp only [registerOwner, Declaration.Class.isImport, input.importedFrom_withoutCopy, input.name_withoutCopy]
  rfl

/-- An import of a class that the run declares adds nothing, with or without attributes. -/
theorem registerClass_withoutCopy {owners : Table Name Name} (owned : Owners input owners)
    (policy : ImportPolicy) (subsystems : List Name) (register : ClassRegister)
    (declaration : Name × Declaration.Class) :
    registerClass policy owners subsystems register (declaration.1, input.withoutCopy declaration.2) =
      registerClass policy owners subsystems register declaration := by
  obtain ⟨into, cls⟩ := declaration
  by_cases copies : (cls.isImport && input.declares cls.name) = true
  · obtain ⟨imports, declares⟩ := Bool.and_eq_true_iff.mp copies
    obtain ⟨source, imported⟩ := Option.isSome_iff_exists.mp imports
    cases found : owners.get? cls.name with
    -- the class has an owner, so that neither outcome looks at what the import says of it
    | none =>
      rw [owned.get?_eq_none_iff.mp found] at declares
      cases declares
    | some owner =>
      simp only [registerClass, standing, input.importedFrom_withoutCopy, input.name_withoutCopy, imported, found]
      cases sameSubsystem owner source <;> rfl
  · rw [ModelInput.withoutCopy, if_neg copies]

theorem ofInput_withoutCopies (input : ModelInput) (options : AnalysisOptions) :
    ofInput input.withoutCopies options = ofInput input options := by
  have subsystems : input.withoutCopies.subsystems.foldlM registerSubsystem .empty =
      input.subsystems.foldlM registerSubsystem .empty := by
    rw [ModelInput.withoutCopies, List.foldlM_map]
    rfl
  unfold ofInput
  rw [subsystems, input.relationshipDeclarations_withoutCopies, input.classDeclarations_withoutCopies,
    List.foldlM_map]
  simp only [registerOwner_withoutCopy]
  refine bind_congr_of_ok fun known _ => bind_congr_of_ok fun owners registered => ?_
  have owned := owners_of_registered registered
  rw [List.foldlM_map]
  simp only [registerClass_withoutCopy owned]

end Merged

theorem analyze_withoutCopies (input : ModelInput) (options : AnalysisOptions) :
    analyze input.withoutCopies options = analyze input options := by
  unfold analyze Analysis.ofInput
  rw [Merged.ofInput_withoutCopies]
  rfl

/-- A model that holds what an input declares: its subsystems and relationships, and a class for each name
that the input declares or imports from outside, as the first such declaration has it. -/
structure Model.Restates (model : Model) (input : ModelInput) : Prop where
  subsystems : model.subsystems.entries = input.subsystems.map fun subsystem =>
    (subsystem.name, ⟨subsystem.name, subsystem.aliasName.getD subsystem.name, subsystem.domain⟩)
  relationships : model.relationships.entries = input.relationshipDeclarations.map fun declaration =>
    (declaration.2.rnum, ⟨declaration.2.rnum, declaration.1, declaration.2.shape⟩)
  classNames : model.classes.keys = (input.entering.map (·.2.name)).eraseDups
  numbers : ∀ position className cls,
    model.classes.entries[position]? = some (className, cls) → position + 1 < UInt32.size →
      cls.number.val = position + 1
  classes : ∀ className cls, model.classes.get? className = some cls → ∃ declaration,
    input.entering.find? (·.2.name = className) = some declaration ∧ cls.Restates declaration ∧
      (input.declares className = true → declaration.2.importedFrom = none)

/-- A model holds what its input declares, and the attributes of an import whose class the input declares
have no part in it. -/
theorem Model.declarations_restated {input : ModelInput} {options : AnalysisOptions} {model : Model}
    (success : analyze input options = .ok model) :
    model.Restates input ∧ analyze input.withoutCopies options = .ok model := by
  refine ⟨?_, (analyze_withoutCopies input options).trans success⟩
  obtain ⟨analysis, ran, rfl⟩ := analyze_eq_ok_iff.mp success
  obtain ⟨merging, navigating, _⟩ := Analysis.ofInput_eq_ok_iff.mp ran
  obtain ⟨owners, known, owned, related, entered, _⟩ := Merged.ofInput_eq_ok_iff.mp merging
  obtain ⟨classes, _⟩ := Merged.registers_of_foldlM (Merged.owners_of_registered owned) entered
  refine ⟨(Merged.foldlM_registerSubsystem_eq_ok_iff.mp known).2,
    (Merged.foldlM_registerRelationship_eq_ok_iff.mp related).2, ?_, ?_, ?_⟩
  · calc analysis.model.classes.keys
      _ = analysis.classes.keys := Table.keys_mapValues ..
      _ = analysis.merged.classes.keys := Table.keys_of_mapValuesM navigating
      _ = (input.entering.map (·.2.name)).eraseDups := classes.names
  · intro position className cls found small
    have numbered : (analysis.model.classes.values.map (·.number))[position]? = some cls.number := by
      simp [Table.values, found]
    rw [Analysis.numbers_model navigating, classes.numbers, List.getElem?_eq_some_iff] at numbered
    obtain ⟨_, counted⟩ := numbered
    rw [List.getElem_map, List.getElem_range'] at counted
    rw [← counted, Fin.val_ofNat, Nat.mod_eq_of_lt] <;> omega
  · intro className cls found
    obtain ⟨typed, known, rfl⟩ := Analysis.get?_classes_model.mp found
    obtain ⟨original, merged, navigated⟩ := get?_navigateClasses navigating known
    obtain ⟨declaration, first, _, same⟩ := classes.classes className original merged
    have restates : original.Restates declaration := by
      rw [same]
      exact Resolved.Class.restates_ofDeclaration declaration _
    refine ⟨declaration, first, (restates.navigate navigated).annotate _, fun declares => ?_⟩
    have brings : input.bringsIn declaration = true := (List.mem_filter.mp (List.mem_of_find?_eq_some first)).2
    have named : declaration.2.name = className := by simpa using List.find?_some first
    simpa [ModelInput.bringsIn, ModelInput.isLate, named, declares, Declaration.Class.isImport] using brings

namespace Sample

/-- Orders are declared in one subsystem and imported by another one, and both import clocks from a
subsystem that is not part of the run. -/
def shipping : ModelInput :=
  { subsystems := [
      { name := "Sales"
        classes := [
          { name := "Clock", importedFrom := some "Time"
            attributes := [{ name := "Hour", scalar := some "Number", identifiers := [.second] }] },
          { name := "Order"
            attributes := [{ name := "Number", scalar := some "Number", identifiers := [.first] }] }] },
      { name := "Shipping"
        classes := [
          { name := "Order", importedFrom := some "SALES", attributes := [{ name := "Weight" }] },
          { name := "Parcel" },
          { name := "Clock", importedFrom := some "Time" }] }] }

end Sample

/-- Of the clocks the first import counts, and the weight that shipping gives to orders is left out. -/
theorem Model.declarations_restated_shipping : ∃ model, analyze Sample.shipping = .ok model ∧
    model.classes.entries.map (fun entry => (entry.1, entry.2.number.val, entry.2.attributes.map (·.name))) =
      [("Clock", 1, ["Hour"]), ("Order", 2, ["Number"]), ("Parcel", 3, [])] ∧
    model.Restates Sample.shipping ∧ analyze Sample.shipping.withoutCopies = .ok model := by
  have ran : ((analyze Sample.shipping).toOption.map fun model =>
      model.classes.entries.map fun entry => (entry.1, entry.2.number.val, entry.2.attributes.map (·.name))) =
      some [("Clock", 1, ["Hour"]), ("Order", 2, ["Number"]), ("Parcel", 3, [])] := by
    decide +kernel
  simp only [Option.map_eq_some_iff, toOption_eq_some_iff] at ran
  obtain ⟨model, success, classes⟩ := ran
  exact ⟨model, success, classes, declarations_restated success⟩

end ClassModel
