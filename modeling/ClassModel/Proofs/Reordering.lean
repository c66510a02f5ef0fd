import ClassModel.Proofs.Navigating
import ClassModel.Proofs.Renumbering

/-! # Reordered declarations

The order in which subsystems are given, and classes and relationships in each of them, decides no
more than the order of the merged tables and the numbers of the classes, as long as no class enters
by an import.
-/

namespace ClassModel

/-- The same subsystem with its classes and relationships in another order. -/
structure Declaration.Subsystem.Reordered (left right : Subsystem) : Prop where
  name : left.name = right.name
  aliasName : left.aliasName = right.aliasName
  domain : left.domain = right.domain
  classes : left.classes.Perm right.classes
  relationships : left.relationships.Perm right.relationships

theorem Declaration.Subsystem.Reordered.symm {left right : Subsystem} (reordered : left.Reordered right) :
    right.Reordered left :=
  ⟨reordered.name.symm, reordered.aliasName.symm, reordered.domain.symm, reordered.classes.symm,
    reordered.relationships.symm⟩

/-- The same input with its subsystems, and the classes and relationships in each of them, in another
order. -/
structure ModelInput.Reordered (left right : ModelInput) : Prop where
  subsystems : ∃ middle, left.subsystems.Perm middle ∧
    List.Forall₂ Declaration.Subsystem.Reordered middle right.subsystems
  stateModels : left.stateModels = right.stateModels

namespace ModelInput.Reordered

variable {left right : ModelInput} (reordered : left.Reordered right)

include reordered

theorem symm : right.Reordered left := by
  obtain ⟨⟨middle, perm, pairs⟩, stateModels⟩ := reordered
  have back : List.Forall₂ Declaration.Subsystem.Reordered right.subsystems middle :=
    pairs.flip.imp fun _ _ same => same.symm
  have moved : Relation.Comp List.Perm (List.Forall₂ Declaration.Subsystem.Reordered)
      right.subsystems left.subsystems := by
    rw [← List.forall₂_comp_perm_eq_perm_comp_forall₂]
    exact ⟨middle, back, perm.symm⟩
  exact ⟨moved, stateModels.symm⟩

/-- Whatever the subsystems list in some order, the inputs list in some order. -/
theorem perm_flatMap {α : Type} (items : Declaration.Subsystem → List α)
    (alike : ∀ first second : Declaration.Subsystem, first.Reordered second →
      (items first).Perm (items second)) :
    (left.subsystems.flatMap items).Perm (right.subsystems.flatMap items) := by
  obtain ⟨middle, perm, pairs⟩ := reordered.subsystems
  refine (perm.flatMap_right items).trans ?_
  generalize right.subsystems = others at pairs
  clear perm
  induction pairs with
  | nil => exact .refl _
  | cons same _ ih => exact (alike _ _ same).append ih

theorem classDeclarations : left.classDeclarations.Perm right.classDeclarations := by
  refine reordered.perm_flatMap _ fun first second same => ?_
  rw [same.name]
  exact same.classes.map _

theorem ownDeclarations : (Merged.ownDeclarations left).Perm (Merged.ownDeclarations right) :=
  reordered.classDeclarations.filter _

theorem relationshipDeclarations : left.relationshipDeclarations.Perm right.relationshipDeclarations := by
  refine reordered.perm_flatMap _ fun first second same => ?_
  rw [same.name]
  exact same.relationships.map _

theorem map_subsystems {α : Type} (view : Declaration.Subsystem → α)
    (alike : ∀ first second : Declaration.Subsystem, first.Reordered second → view first = view second) :
    (left.subsystems.map view).Perm (right.subsystems.map view) := by
  rw [List.map_eq_flatMap, List.map_eq_flatMap]
  exact reordered.perm_flatMap _ fun first second same => by rw [alike first second same]

end ModelInput.Reordered

namespace Merged

/-- Two merged inputs that differ in the order of their tables and the numbers of their classes. -/
structure Alike (left right : Merged) : Prop where
  subsystems : left.subsystems.Same right.subsystems
  classes : (unnumberedClasses left.classes).Same (unnumberedClasses right.classes)
  relationships : left.relationships.Same right.relationships
  warnings : left.warnings = right.warnings

section Entering

/-- Where imports are denied, a declaration must be admissible, and its class is entered if that is
its own. -/
theorem registerClass_deny_eq_ok_iff {owners : Table Name Name} {subsystems : List Name}
    {register next : ClassRegister} {declaration : Name × Declaration.Class} :
    registerClass .deny owners subsystems register declaration = .ok next ↔
      Admissible owners declaration.2 ∧
        (if declaration.2.isImport then register else register.enter declaration.1 declaration.2) = next := by
  obtain ⟨into, cls⟩ := declaration
  rw [registerClass_eq_ok_iff]
  unfold Admissible Declaration.Class.isImport
  cases cls.importedFrom with
  | none => simp
  | some source =>
    simp only [reduceCtorEq, false_and, false_or, Option.some.injEq, Option.isSome_some, ↓reduceIte,
      forall_eq', and_false, exists_const, or_false]
    constructor
    · rintro ⟨_, owner, rfl, owned, same, kept⟩
      exact ⟨⟨owner, owned, same⟩, kept⟩
    · rintro ⟨⟨owner, owned, same⟩, kept⟩
      exact ⟨_, owner, rfl, owned, same, kept⟩

/-- Where imports are denied, the classes are those declared in the run. -/
theorem foldlM_registerClass_deny_eq_ok_iff {owners : Table Name Name} {subsystems : List Name}
    {declarations : List (Name × Declaration.Class)} {start final : ClassRegister} :
    declarations.foldlM (registerClass .deny owners subsystems) start = .ok final ↔
      (∀ declaration ∈ declarations, Admissible owners declaration.2) ∧
        (declarations.filter (!·.2.isImport)).foldl
          (fun register declaration => register.enter declaration.1 declaration.2) start = final := by
  induction declarations generalizing start with
  | nil => simp [pure, Except.pure]
  | cons declaration rest ih =>
    rw [List.foldlM_cons, bind_eq_ok_iff, List.forall_mem_cons, List.filter_cons]
    simp only [registerClass_deny_eq_ok_iff, ih]
    cases declaration.2.isImport <;> simp [and_assoc]

/-- Classes of new names enter in their order, and only their numbers depend on it. -/
theorem foldl_enter_spec {declarations : List (Name × Declaration.Class)} (start : ClassRegister)
    (absent : ∀ declaration ∈ declarations, start.classes.get? declaration.2.name = none)
    (distinct : (declarations.map (·.2.name)).Nodup) :
    let final := declarations.foldl
      (fun register declaration => register.enter declaration.1 declaration.2) start
    final.warnings = start.warnings ∧
      (unnumberedClasses final.classes).entries = (unnumberedClasses start.classes).entries ++
        declarations.map fun declaration =>
          (declaration.2.name, .ofDeclaration declaration.2 0 declaration.1) := by
  induction declarations generalizing start with
  | nil => simp
  | cons declaration rest ih =>
    rw [List.forall_mem_cons] at absent
    rw [List.map_cons, List.nodup_cons] at distinct
    obtain ⟨here, later⟩ := absent
    have entered : start.enter declaration.1 declaration.2 =
        { start with
          classes := start.classes.insert declaration.2.name
            (.ofDeclaration declaration.2 (start.classes.size + 1) declaration.1) } := by
      simp [ClassRegister.enter, Table.contains, here]
    obtain ⟨warnings, entries⟩ := ih (start.enter declaration.1 declaration.2)
      (fun other listed => by
        have different : declaration.2.name ≠ other.2.name :=
          fun same => distinct.1 (same ▸ List.mem_map_of_mem listed)
        rw [entered, Table.get?_insert, if_neg different]
        exact later other listed) distinct.2
    refine ⟨warnings.trans (by rw [entered]), entries.trans ?_⟩
    rw [entered, entries_unnumberedClasses, Table.entries_insert_of_absent here, List.map_append,
      List.append_assoc]
    rfl

end Entering

theorem Admissible.of_same {left right : Table Name Name} (same : left.Same right)
    {cls : Declaration.Class} (admissible : Admissible left cls) : Admissible right cls := by
  intro source imported
  obtain ⟨owner, owned, named⟩ := admissible source imported
  exact ⟨owner, (same cls.name).symm.trans owned, named⟩

theorem relationshipFault?_congr {left right : Table Name Resolved.Class}
    (same : ∀ name, left.contains name = right.contains name) :
    relationshipFault? left = relationshipFault? right := by
  funext relationship
  simp only [relationshipFault?, same]

/-- Reordered declarations merge alike. -/
theorem of_reordered {left right : ModelInput} (reordered : left.Reordered right) {merged : Merged}
    (success : ofInput left ⟨.deny⟩ = .ok merged) :
    ∃ other, ofInput right ⟨.deny⟩ = .ok other ∧ merged.Alike other := by
  obtain ⟨owners, known, owned, related, entered, sound⟩ := ofInput_eq_ok_iff.mp success
  obtain ⟨subsystemNames, subsystemEntries⟩ := foldlM_registerSubsystem_eq_ok_iff.mp known
  obtain ⟨classNames, ownerEntries⟩ := foldlM_registerOwner_eq_ok_iff.mp owned
  obtain ⟨rnums, relationshipEntries⟩ := foldlM_registerRelationship_eq_ok_iff.mp related
  obtain ⟨admissible, classes⟩ := foldlM_registerClass_deny_eq_ok_iff.mp entered
  have names := reordered.map_subsystems (·.name) fun _ _ same => same.name
  have own := reordered.ownDeclarations
  have otherNames := (own.map (·.2.name)).nodup_iff.mp classNames
  -- the tables of the one input in the order of the other
  obtain ⟨subsystems, listedSubsystems, sameSubsystems⟩ := Table.exists_same_of_perm <|
    subsystemEntries ▸ reordered.map_subsystems
      (fun subsystem => (subsystem.name, Resolved.Subsystem.ofDeclaration subsystem))
      fun first second same => by
        simp [Resolved.Subsystem.ofDeclaration, same.name, same.aliasName, same.domain]
  obtain ⟨otherOwners, listedOwners, sameOwners⟩ := Table.exists_same_of_perm <|
    ownerEntries ▸ own.map _
  obtain ⟨relationships, listedRelationships, sameRelationships⟩ := Table.exists_same_of_perm <|
    relationshipEntries ▸ reordered.relationshipDeclarations.map _
  let register := (ownDeclarations right).foldl
    (fun (register : ClassRegister) declaration => register.enter declaration.1 declaration.2) {}
  obtain ⟨warnings, entries⟩ := foldl_enter_spec {} (fun _ _ => rfl) classNames
  obtain ⟨otherWarnings, otherEntries⟩ := foldl_enter_spec {} (fun _ _ => rfl) otherNames
  rw [ownDeclarations, classes] at warnings entries
  have sameClasses : (unnumberedClasses merged.classes).Same (unnumberedClasses register.classes) := by
    rw [Table.same_iff_perm, entries, otherEntries]
    exact own.map _
  have contains : ∀ name, merged.classes.contains name = register.classes.contains name := by
    intro name
    rw [← contains_unnumberedClasses, sameClasses.contains, contains_unnumberedClasses]
  refine ⟨⟨subsystems, register.classes, relationships, register.warnings⟩,
    ofInput_eq_ok_iff.mpr ⟨otherOwners, ?_, ?_, ?_, ?_, ?_⟩,
    sameSubsystems, sameClasses, sameRelationships, warnings.trans otherWarnings.symm⟩
  · exact foldlM_registerSubsystem_eq_ok_iff.mpr ⟨names.nodup_iff.mp subsystemNames, listedSubsystems⟩
  · exact foldlM_registerOwner_eq_ok_iff.mpr ⟨otherNames, listedOwners⟩
  · refine foldlM_registerRelationship_eq_ok_iff.mpr ⟨?_, listedRelationships⟩
    exact (reordered.relationshipDeclarations.map (·.2.rnum)).nodup_iff.mp rnums
  · refine foldlM_registerClass_deny_eq_ok_iff.mpr ⟨fun declaration listed => ?_, rfl⟩
    exact (admissible declaration (reordered.classDeclarations.mem_iff.mpr listed)).of_same sameOwners
  · intro relationship listed
    rw [← relationshipFault?_congr contains]
    exact sound relationship (sameRelationships.values_perm.mem_iff.mpr listed)

end Merged

section Pinning

/-- The order of the ends that a class sees is of no consequence. -/
theorem NavigationHint.pin_eq_of_perm (hint : NavigationHint) {left right : List Endpoint}
    (perm : left.Perm right) : hint.pin left = hint.pin right := by
  have agreeing := perm.filter hint.agrees
  unfold pin
  generalize left.filter hint.agrees = first at agreeing
  generalize right.filter hint.agrees = second at agreeing
  match first, second, agreeing with
  | [], _, agreeing => rw [← List.nil_perm.mp agreeing]
  | [endpoint], _, agreeing => rw [← List.singleton_perm.mp agreeing]
  | one :: two :: rest, [], agreeing => exact absurd agreeing.length_eq (by simp)
  | one :: two :: rest, [endpoint], agreeing => exact absurd agreeing.length_eq (by simp)
  | one :: two :: rest, first :: second :: others, agreeing =>
    dsimp only
    rw [agreeing.length_eq]

theorem Resolved.Class.navigate_eq_of_perm (cls : Class) {left right : List Endpoint}
    (perm : left.Perm right) : cls.navigate left = cls.navigate right := by
  have same : Attribute.navigate cls.name left = Attribute.navigate cls.name right := by
    funext attr
    simp only [Attribute.navigate, NavigationHint.pin_eq_of_perm _ perm]
  unfold navigate
  rw [same]

theorem Endpoint.seenFrom_perm {left right : List Resolved.Relationship} (perm : left.Perm right)
    (className : Name) : (seenFrom left className).Perm (seenFrom right className) := by
  rw [List.perm_ext_iff_of_nodup (nodup_seenFrom ..) (nodup_seenFrom ..)]
  intro endpoint
  simp only [mem_seenFrom_iff, perm.mem_iff]

/-- Classes that are alike are pinned alike. -/
theorem navigateClasses_of_same {leftRelationships rightRelationships : Table Rnum Resolved.Relationship}
    {left right : Table Name Resolved.Class} (sameRelationships : leftRelationships.Same rightRelationships)
    (same : (unnumberedClasses left).Same (unnumberedClasses right)) {classes : Table Name Resolved.Class}
    (success : navigateClasses leftRelationships left = .ok classes) :
    ∃ others, navigateClasses rightRelationships right = .ok others ∧
      (unnumberedClasses classes).Same (unnumberedClasses others) := by
  have alike : ∀ name (cls : Resolved.Class),
      cls.navigate (Endpoint.seenFrom leftRelationships.values name) =
        cls.navigate (Endpoint.seenFrom rightRelationships.values name) :=
    fun name cls => cls.navigate_eq_of_perm (Endpoint.seenFrom_perm sameRelationships.values_perm name)
  have found : ∀ name, (unnumberedClasses left).get? name = (unnumberedClasses right).get? name := same
  have runs := exists_navigateClasses_iff.mp ⟨classes, success⟩
  simp only [found, alike] at runs
  obtain ⟨others, ran⟩ := exists_navigateClasses_iff.mpr runs
  refine ⟨others, ran, fun name => ?_⟩
  rw [get?_unnumbered_navigateClasses success, get?_unnumbered_navigateClasses ran]
  simp only [found, alike]

end Pinning

end ClassModel
