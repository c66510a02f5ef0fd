import ClassModel.Analysis.Merged
import ClassModel.Proofs.Tables

/-! # What merging yields

A run of subsystems merges when subsystem names, relationship numbers and the names of the classes
declared in the run are distinct, every import is admissible and no relationship is faulty. The
tables then hold exactly what was declared.
-/

namespace ClassModel

namespace Identifiers

theorem mem_groups_iff {identifiers : Identifiers} {group : IdGroup} {members : List Name} :
    (group, members) ∈ identifiers.groups ↔ identifiers.members? group = some members := by
  simp only [groups, List.mem_filterMap, Option.map_eq_some_iff, Prod.mk.injEq]
  constructor
  · rintro ⟨_, _, _, found, rfl, rfl⟩
    exact found
  · intro found
    exact ⟨group, by cases group <;> simp [IdGroup.all], members, found, rfl, rfl⟩

theorem nodup_defined (identifiers : Identifiers) : identifiers.defined.Nodup := by
  have all : IdGroup.all.Nodup := by decide
  have same : identifiers.defined = IdGroup.all.filter fun group => (identifiers.members? group).isSome := by
    rw [defined, groups, List.map_filterMap, ← List.filterMap_eq_filter]
    congr 1
    funext group
    cases found : identifiers.members? group <;> simp [Option.guard, found]
  exact same ▸ all.filter _

/-- A group collects the names of some attributes, each once. -/
theorem collect_spec {memberships : List (Name × List IdGroup)} {group : IdGroup} :
    (collect memberships group).Nodup ∧
      ∀ member ∈ collect memberships group, member ∈ memberships.map (·.1) := by
  refine ⟨nodup_eraseDups _, fun member present => ?_⟩
  obtain ⟨entry, listed, rfl⟩ := List.mem_map.mp (List.mem_eraseDups.mp present)
  exact List.mem_map_of_mem (List.mem_filter.mp listed).1

theorem members_ofMemberships {memberships : List (Name × List IdGroup)} {group : IdGroup}
    {members : List Name} (found : (ofMemberships memberships).members? group = some members) :
    members.Nodup ∧ ∀ member ∈ members, member ∈ memberships.map (·.1) := by
  unfold ofMemberships at found
  split at found
  · simp only [Option.ite_none_right_eq_some, Option.some.injEq] at found
    simp [← found.2]
  · simp only [Option.ite_none_right_eq_some, Option.some.injEq] at found
    exact found.2 ▸ collect_spec

end Identifiers

/-- A declared relationship as the model holds it. -/
def Resolved.Relationship.ofDeclaration (declaration : Name × Declaration.Relationship) :
    Resolved.Relationship :=
  ⟨declaration.2.rnum, declaration.1, declaration.2.shape⟩

namespace Merged

/-- The classes declared in the run itself, without imports. -/
def ownDeclarations (input : ModelInput) : List (Name × Declaration.Class) :=
  input.classDeclarations.filter (!·.2.isImport)

/-- An import is admissible where its class is declared under the subsystem that it names. -/
def Admissible (owners : Table Name Name) (cls : Declaration.Class) : Prop :=
  ∀ source, cls.importedFrom = some source →
    ∃ owner, owners.get? cls.name = some owner ∧ sameSubsystem owner source = true

theorem foldlM_registerSubsystem_eq_ok_iff {subsystems : List Declaration.Subsystem}
    {known : Table Name Resolved.Subsystem} :
    subsystems.foldlM registerSubsystem .empty = .ok known ↔ (subsystems.map (·.name)).Nodup ∧
      known.entries = subsystems.map fun subsystem => (subsystem.name, .ofDeclaration subsystem) := by
  refine Table.foldlM_insertNew_eq_ok_iff (·.name) Resolved.Subsystem.ofDeclaration ?_ ?_
  · intro subsystem _ table absent
    simp [registerSubsystem, Table.contains, absent]
  · intro subsystem _ table next ran
    unfold registerSubsystem at ran
    split at ran
    · simp at ran
    · rename_i absent
      simpa [Table.contains] using absent

theorem foldlM_registerOwner_filter_eq_ok_iff {declarations : List (Name × Declaration.Class)}
    {owners : Table Name Name} :
    declarations.foldlM registerOwner .empty = .ok owners ↔
      ((declarations.filter (!·.2.isImport)).map (·.2.name)).Nodup ∧
        owners.entries = (declarations.filter (!·.2.isImport)).map fun declaration =>
          (declaration.2.name, declaration.1) := by
  have skips : declarations.foldlM registerOwner .empty =
      (declarations.filter (!·.2.isImport)).foldlM registerOwner .empty := by
    rw [List.foldlM_filter]
    congr
    funext known declaration
    cases own : declaration.2.isImport <;> simp [registerOwner, own, pure, Except.pure]
  rw [skips]
  refine Table.foldlM_insertNew_eq_ok_iff
    (fun declaration : Name × Declaration.Class => declaration.2.name) (·.1) ?_ ?_
  · intro declaration present table absent
    have own : declaration.2.isImport = false := by simpa using (List.mem_filter.mp present).2
    simp [registerOwner, own, absent]
  · intro declaration present table next ran
    have own : declaration.2.isImport = false := by simpa using (List.mem_filter.mp present).2
    simp only [registerOwner, own, Bool.false_eq_true, ↓reduceIte] at ran
    split at ran
    · simp at ran
    · assumption

theorem foldlM_registerOwner_eq_ok_iff {input : ModelInput} {owners : Table Name Name} :
    input.classDeclarations.foldlM registerOwner .empty = .ok owners ↔
      ((ownDeclarations input).map (·.2.name)).Nodup ∧
        owners.entries = (ownDeclarations input).map fun declaration =>
          (declaration.2.name, declaration.1) :=
  foldlM_registerOwner_filter_eq_ok_iff

theorem foldlM_registerRelationship_eq_ok_iff {declarations : List (Name × Declaration.Relationship)}
    {known : Table Rnum Resolved.Relationship} :
    declarations.foldlM registerRelationship .empty = .ok known ↔
      (declarations.map (·.2.rnum)).Nodup ∧
        known.entries = declarations.map fun declaration =>
          (declaration.2.rnum, .ofDeclaration declaration) := by
  refine Table.foldlM_insertNew_eq_ok_iff
    (fun declaration : Name × Declaration.Relationship => declaration.2.rnum)
    Resolved.Relationship.ofDeclaration ?_ ?_
  · intro declaration _ table absent
    simp [registerRelationship, absent, Resolved.Relationship.ofDeclaration]
  · intro declaration _ table next ran
    unfold registerRelationship at ran
    dsimp only at ran
    split at ran
    · simp at ran
    · assumption

/-- A class declaration adds its class if that is its own, nothing if it is an admissible import,
and the class it imports, with a warning, if that is declared nowhere. -/
theorem registerClass_eq_ok_iff {policy : ImportPolicy} {owners : Table Name Name}
    {subsystems : List Name} {register next : ClassRegister} {into : Name} {cls : Declaration.Class} :
    registerClass policy owners subsystems register (into, cls) = .ok next ↔
      (cls.importedFrom = none ∧ register.enter into cls = next) ∨
      (∃ source owner, cls.importedFrom = some source ∧ owners.get? cls.name = some owner ∧
        sameSubsystem owner source = true ∧ register = next) ∨
      (∃ source, cls.importedFrom = some source ∧ owners.get? cls.name = none ∧
        subsystems.any (sameSubsystem · source) = false ∧ policy = .warn ∧
        (register.warn cls.name source into).enter into cls = next) := by
  cases imported : cls.importedFrom with
  | none => simp [registerClass, standing, imported]
  | some source =>
    cases owned : owners.get? cls.name with
    | some owner =>
      cases same : sameSubsystem owner source <;>
        simp [registerClass, standing, imported, owned, same]
    | none =>
      generalize there : subsystems.any (sameSubsystem · source) = known
      cases known <;> cases policy <;>
        simp [registerClass, standing, imported, owned, there, -List.any_eq_true, -List.any_eq_false]

theorem enter_get? {register : ClassRegister} {into name : Name} {decl : Declaration.Class}
    {cls : Resolved.Class} (found : (register.enter into decl).classes.get? name = some cls) :
    register.classes.get? name = some cls ∨
      (name = decl.name ∧ ∃ number, cls = .ofDeclaration decl number into) := by
  unfold ClassRegister.enter at found
  split at found
  · exact .inl found
  · rw [Table.get?_insert] at found
    split at found
    · rename_i same
      exact .inr ⟨same.symm, _, (Option.some.inj found).symm⟩
    · exact .inl found

/-- Every class of the table is declared under its name. -/
theorem classes_declared {policy : ImportPolicy} {owners : Table Name Name} {subsystems : List Name}
    {declarations : List (Name × Declaration.Class)} {register : ClassRegister}
    (success : declarations.foldlM (registerClass policy owners subsystems) {} = .ok register)
    {name : Name} {cls : Resolved.Class} (found : register.classes.get? name = some cls) :
    ∃ declaration ∈ declarations, name = declaration.2.name ∧
      ∃ number, cls = .ofDeclaration declaration.2 number declaration.1 := by
  refine foldlM_invariant (fun register => ∀ name cls, register.classes.get? name = some cls →
    ∃ declaration ∈ declarations, name = declaration.2.name ∧
      ∃ number, cls = .ofDeclaration declaration.2 number declaration.1) success
    (fun _ _ found => by simp at found) ?_ _ _ found
  intro declaration present state next holds ran name cls found
  obtain ⟨_, rfl⟩ | ⟨_, _, _, _, _, rfl⟩ | ⟨_, _, _, _, _, rfl⟩ := registerClass_eq_ok_iff.mp ran
  · rcases enter_get? found with known | entered
    · exact holds _ _ known
    · exact ⟨declaration, present, entered⟩
  · exact holds _ _ found
  · rcases enter_get? found with known | entered
    · exact holds _ _ known
    · exact ⟨declaration, present, entered⟩

/-- Merging succeeds when each of its parts does and no relationship is faulty. -/
theorem ofInput_eq_ok_iff {input : ModelInput} {options : AnalysisOptions} {merged : Merged} :
    ofInput input options = .ok merged ↔ ∃ owners,
      input.subsystems.foldlM registerSubsystem .empty = .ok merged.subsystems ∧
      input.classDeclarations.foldlM registerOwner .empty = .ok owners ∧
      input.relationshipDeclarations.foldlM registerRelationship .empty = .ok merged.relationships ∧
      input.classDeclarations.foldlM
        (registerClass options.importPolicy owners merged.subsystems.keys) {} =
          .ok ⟨merged.classes, merged.warnings⟩ ∧
      ∀ relationship ∈ merged.relationships.values,
        relationshipFault? merged.classes relationship = none := by
  unfold ofInput
  constructor
  · intro success
    obtain ⟨subsystems, known, success⟩ := bind_eq_ok_iff.mp success
    obtain ⟨owners, owned, success⟩ := bind_eq_ok_iff.mp success
    obtain ⟨relationships, related, success⟩ := bind_eq_ok_iff.mp success
    obtain ⟨register, entered, success⟩ := bind_eq_ok_iff.mp success
    split at success
    · simp at success
    · rename_i sound
      cases success
      exact ⟨owners, known, owned, related, entered, List.findSome?_eq_none_iff.mp sound⟩
  · rintro ⟨owners, known, owned, related, entered, sound⟩
    refine bind_eq_ok_iff.mpr ⟨_, known, bind_eq_ok_iff.mpr ⟨_, owned, bind_eq_ok_iff.mpr
      ⟨_, related, bind_eq_ok_iff.mpr ⟨_, entered, ?_⟩⟩⟩⟩
    rw [List.findSome?_eq_none_iff.mpr sound]

/-- A relationship without fault names classes of the table, and is plainly reflexive if it is
ordinal. -/
theorem relationshipFault?_eq_none_iff {classes : Table Name Resolved.Class}
    {relationship : Resolved.Relationship} :
    relationshipFault? classes relationship = none ↔
      (∀ name ∈ relationship.shape.classNames, ∃ cls, classes.get? name = some cls) ∧
        (relationship.isOrdinal = true → relationship.shape.isPlainReflexive = true) := by
  unfold relationshipFault?
  split
  · rename_i unknown found
    have absent := List.find?_some found
    simp only [Bool.not_eq_true', Table.contains_eq_false_iff] at absent
    simp only [reduceCtorEq, false_iff, not_and]
    intro known
    obtain ⟨cls, present⟩ := known unknown (List.mem_of_find?_eq_some found)
    simp [absent] at present
  · rename_i known
    rw [List.find?_eq_none] at known
    simp only [Bool.not_eq_true', Bool.not_eq_false, Table.contains_eq_true_iff] at known
    rw [and_iff_right known]
    cases relationship.isOrdinal <;> cases relationship.shape.isPlainReflexive <;> simp

end Merged

end ClassModel
