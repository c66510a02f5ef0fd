import ClassModel.Proofs.Registration

/-! # Faults that keep declarations apart

An input merges exactly if its subsystem names, the names of the classes that it declares and its
relationship numbers are distinct, every import stands and every relationship stands. Where it does not
merge, the error is about the first of these rules that is broken, and about the first thing in the order
of the declarations that breaks it.
-/

namespace ClassModel

namespace ModelInput

/-- Whether an import is let through although the run does not declare its class: no subsystem of the run
goes by the name that it imports from, and such imports are only warned of. -/
structure PassesLate (input : ModelInput) (policy : ImportPolicy) (className source : Name) : Prop where
  undeclared : ∀ declaration ∈ Merged.ownDeclarations input, declaration.2.name ≠ className
  outside : ∀ subsystem ∈ input.subsystems, Text.lowercase subsystem.name ≠ Text.lowercase source
  warns : policy = .warn

/-- Whether a class declaration stands: an import must name, up to case, a subsystem that declares the
class, or pass without one. -/
def ClassStands (input : ModelInput) (policy : ImportPolicy) (cls : Declaration.Class) : Prop :=
  ∀ source, cls.importedFrom = some source →
    (∃ declaration ∈ Merged.ownDeclarations input, declaration.2.name = cls.name ∧
      Text.lowercase declaration.1 = Text.lowercase source) ∨
    input.PassesLate policy cls.name source

/-- Whether the merged run has a class: it is declared, or an import of it passes. -/
def Provides (input : ModelInput) (policy : ImportPolicy) (className : Name) : Prop :=
  (∃ declaration ∈ Merged.ownDeclarations input, declaration.2.name = className) ∨
    ∃ declaration ∈ input.classDeclarations, declaration.2.name = className ∧
      ∃ source, declaration.2.importedFrom = some source ∧ input.PassesLate policy className source

/-- Whether a relationship stands: the run has all classes that it names, and if it is ordinal it is an
association without association class and with one class on both sides. -/
structure RelationshipStands (input : ModelInput) (policy : ImportPolicy)
    (relationship : Declaration.Relationship) : Prop where
  classNames : ∀ className ∈ relationship.shape.classNames, input.Provides policy className
  reflexive : relationship.rnum.isOrdinal = true → ∃ passive active,
    relationship.shape = .association passive active none ∧ passive.className = active.className

/-- The subsystems of an input have names of their own. -/
def DistinctSubsystems (input : ModelInput) : Prop := (input.subsystems.map (·.name)).Nodup

/-- The classes that an input declares have names of their own. -/
def DistinctClasses (input : ModelInput) : Prop :=
  ((Merged.ownDeclarations input).map (·.2.name)).Nodup

/-- The relationships of an input have numbers of their own. -/
def DistinctRelationships (input : ModelInput) : Prop :=
  (input.relationshipDeclarations.map (·.2.rnum)).Nodup

/-- What an input must satisfy for its declarations to be brought together. -/
structure Consistent (input : ModelInput) (policy : ImportPolicy) : Prop where
  subsystems : input.DistinctSubsystems
  classes : input.DistinctClasses
  rnums : input.DistinctRelationships
  imports : ∀ declaration ∈ input.classDeclarations, input.ClassStands policy declaration.2
  relationships : ∀ declaration ∈ input.relationshipDeclarations,
    input.RelationshipStands policy declaration.2

/-- Why an import of a class from some source into a subsystem does not stand. -/
inductive Refuses (input : ModelInput) (policy : ImportPolicy) (className source into : Name) :
    AnalysisError → Prop where
  | elsewhere {declaration : Name × Declaration.Class} (declared : declaration ∈ Merged.ownDeclarations input)
      (named : declaration.2.name = className)
      (differs : Text.lowercase declaration.1 ≠ Text.lowercase source) :
      Refuses input policy className source into
        (.importFromWrongSubsystem className source into declaration.1)
  | missing {subsystem : Declaration.Subsystem}
      (undeclared : ∀ declaration ∈ Merged.ownDeclarations input, declaration.2.name ≠ className)
      (listed : subsystem ∈ input.subsystems)
      (same : Text.lowercase subsystem.name = Text.lowercase source) :
      Refuses input policy className source into (.importOfMissingClass className source)
  | outside (undeclared : ∀ declaration ∈ Merged.ownDeclarations input, declaration.2.name ≠ className)
      (outside : ∀ subsystem ∈ input.subsystems, Text.lowercase subsystem.name ≠ Text.lowercase source)
      (denies : policy = .deny) :
      Refuses input policy className source into (.importFromMissingSubsystem className source into)

/-- Why a relationship of a subsystem does not stand: it names a class that the run does not have, of
which the first is told, or else it is ordinal and of another shape. -/
inductive Spoils (input : ModelInput) (policy : ImportPolicy) (subsystem : Name)
    (relationship : Declaration.Relationship) : AnalysisError → Prop where
  | unknown {before after : List Name} {className : Name}
      (listed : relationship.shape.classNames = before ++ className :: after)
      (known : ∀ other ∈ before, input.Provides policy other)
      (unknown : ¬ input.Provides policy className) :
      Spoils input policy subsystem relationship
        (.unknownClassInRelationship relationship.rnum className subsystem)
  | shape (known : ∀ className ∈ relationship.shape.classNames, input.Provides policy className)
      (ordinal : relationship.rnum.isOrdinal = true)
      (other : ∀ passive active, relationship.shape = .association passive active none →
        passive.className ≠ active.className) :
      Spoils input policy subsystem relationship
        (.ordinalNotReflexive relationship.rnum subsystem)

/-- The error about the first rule that an input breaks, in the order of the rules and, within one rule,
in the order of the declarations. -/
inductive Breaks (input : ModelInput) (policy : ImportPolicy) : AnalysisError → Prop where
  | subsystem {before after : List Declaration.Subsystem} {first second : Declaration.Subsystem}
      (listed : input.subsystems = before ++ second :: after)
      (distinct : (before.map (·.name)).Nodup) (earlier : first ∈ before) (again : first.name = second.name) :
      Breaks input policy (.duplicateSubsystem second.name)
  | cls {before after : List (Name × Declaration.Class)} {first second : Name × Declaration.Class}
      (subsystems : input.DistinctSubsystems)
      (listed : Merged.ownDeclarations input = before ++ second :: after)
      (distinct : (before.map (·.2.name)).Nodup) (earlier : first ∈ before)
      (again : first.2.name = second.2.name) :
      Breaks input policy (.duplicateClass second.2.name first.1 second.1)
  | rnum {before after : List (Name × Declaration.Relationship)}
      {first second : Name × Declaration.Relationship}
      (subsystems : input.DistinctSubsystems) (classes : input.DistinctClasses)
      (listed : input.relationshipDeclarations = before ++ second :: after)
      (distinct : (before.map (·.2.rnum)).Nodup) (earlier : first ∈ before)
      (again : first.2.rnum = second.2.rnum) :
      Breaks input policy (.duplicateRelationship second.2.rnum first.1 second.1)
  | importing {before after : List (Name × Declaration.Class)} {declaration : Name × Declaration.Class}
      {source : Name} {failure : AnalysisError}
      (subsystems : input.DistinctSubsystems) (classes : input.DistinctClasses)
      (rnums : input.DistinctRelationships)
      (listed : input.classDeclarations = before ++ declaration :: after)
      (stand : ∀ other ∈ before, input.ClassStands policy other.2)
      (imported : declaration.2.importedFrom = some source)
      (refuses : input.Refuses policy declaration.2.name source declaration.1 failure) :
      Breaks input policy failure
  | relationship {before after : List (Name × Declaration.Relationship)}
      {declaration : Name × Declaration.Relationship} {failure : AnalysisError}
      (subsystems : input.DistinctSubsystems) (classes : input.DistinctClasses)
      (rnums : input.DistinctRelationships)
      (imports : ∀ declaration ∈ input.classDeclarations, input.ClassStands policy declaration.2)
      (listed : input.relationshipDeclarations = before ++ declaration :: after)
      (stand : ∀ other ∈ before, input.RelationshipStands policy other.2)
      (spoils : input.Spoils policy declaration.1 declaration.2 failure) :
      Breaks input policy failure

section Exclusion

variable {input : ModelInput} {policy : ImportPolicy}

theorem Refuses.not_stands {cls : Declaration.Class} {source into : Name} {failure : AnalysisError}
    (classes : input.DistinctClasses) (imported : cls.importedFrom = some source)
    (refuses : input.Refuses policy cls.name source into failure) : ¬ input.ClassStands policy cls := by
  intro stands
  rcases stands source imported with ⟨declaration, declared, named, same⟩ | passes
  · cases refuses with
    | @elsewhere other also otherwise differs =>
      -- classes have names of their own, so that both declarations are one
      have one := List.inj_on_of_nodup_map classes declared also (named.trans otherwise.symm)
      exact differs (one ▸ same)
    | missing undeclared => exact undeclared declaration declared named
    | outside undeclared => exact undeclared declaration declared named
  · cases refuses with
    | elsewhere declared named => exact passes.undeclared _ declared named
    | missing _ listed same => exact passes.outside _ listed same
    | outside _ _ denies => cases denies.symm.trans passes.warns

theorem Spoils.not_stands {relationship : Declaration.Relationship} {subsystem : Name}
    {failure : AnalysisError} (spoils : input.Spoils policy subsystem relationship failure) :
    ¬ input.RelationshipStands policy relationship := by
  intro stands
  cases spoils with
  | unknown listed _ unknown => exact unknown (stands.classNames _ (by simp [listed]))
  | shape _ ordinal other =>
    obtain ⟨passive, active, shape, same⟩ := stands.reflexive ordinal
    exact other passive active shape same

theorem not_nodup_of_again {α κ : Type} {view : α → κ} {items before after : List α} {first second : α}
    (listed : items = before ++ second :: after) (earlier : first ∈ before)
    (again : view first = view second) : ¬ (items.map view).Nodup := by
  intro distinct
  rw [listed, List.map_append, List.map_cons, List.nodup_middle, List.nodup_cons] at distinct
  exact distinct.1 (List.mem_append_left _ (again ▸ List.mem_map_of_mem earlier))

/-- An input that breaks a rule is not consistent. -/
theorem Breaks.not_consistent {failure : AnalysisError} (breaks : input.Breaks policy failure) :
    ¬ input.Consistent policy := by
  intro consistent
  cases breaks with
  | subsystem listed _ earlier again => exact not_nodup_of_again listed earlier again consistent.subsystems
  | cls _ listed _ earlier again => exact not_nodup_of_again listed earlier again consistent.classes
  | rnum _ _ listed _ earlier again => exact not_nodup_of_again listed earlier again consistent.rnums
  | importing _ classes _ listed _ imported refuses =>
    exact refuses.not_stands classes imported (consistent.imports _ (by simp [listed]))
  | relationship _ _ _ _ listed _ spoils =>
    exact spoils.not_stands (consistent.relationships _ (by simp [listed]))

end Exclusion

end ModelInput

theorem Shape.isPlainReflexive_iff {shape : Shape} : shape.isPlainReflexive = true ↔
    ∃ passive active, shape = .association passive active none ∧ passive.className = active.className := by
  unfold isPlainReflexive
  split
  · rename_i passive active
    simp
  · rename_i other
    simp only [Bool.false_eq_true, false_iff]
    rintro ⟨passive, active, rfl, _⟩
    exact other passive active rfl

namespace Merged

open ModelInput

section Classes

variable {input : ModelInput} {policy : ImportPolicy} {owners : Table Name Name} {subsystems : List Name}
  (owned : Owners input owners) (names : subsystems = input.subsystems.map (·.name))

include names in
theorem any_sameSubsystem_iff {source : Name} : subsystems.any (sameSubsystem · source) = true ↔
    ∃ subsystem ∈ input.subsystems, Text.lowercase subsystem.name = Text.lowercase source := by
  simp [names, sameSubsystem]

include names in
theorem any_sameSubsystem_eq_false_iff {source : Name} : subsystems.any (sameSubsystem · source) = false ↔
    ∀ subsystem ∈ input.subsystems, Text.lowercase subsystem.name ≠ Text.lowercase source := by
  simp [names, sameSubsystem]

variable {register : ClassRegister} {declaration : Name × Declaration.Class}

include owned names

/-- A declaration that is registered stands. -/
theorem stands_of_registerClass {next : ClassRegister}
    (ran : registerClass policy owners subsystems register declaration = .ok next) :
    input.ClassStands policy declaration.2 := by
  intro source imported
  rcases registerClass_eq_ok_iff.mp ran with
    ⟨own, _⟩ | ⟨_, owner, also, found, same, _⟩ | ⟨_, also, absent, outside, warns, _⟩
  · cases own.symm.trans imported
  · cases also.symm.trans imported
    obtain ⟨other, declared, named, rfl⟩ := (owned _ _).mp found
    exact .inl ⟨other, declared, named, of_decide_eq_true same⟩
  · cases also.symm.trans imported
    have undeclared := declares_eq_false_iff.mp (owned.get?_eq_none_iff.mp absent)
    exact .inr ⟨undeclared, (any_sameSubsystem_eq_false_iff names).mp outside, warns⟩

/-- Declarations that are registered all stand. -/
theorem stand_of_foldlM_registerClass {declarations : List (Name × Declaration.Class)} {start : ClassRegister}
    (ran : declarations.foldlM (registerClass policy owners subsystems) start = .ok register) :
    ∀ declaration ∈ declarations, input.ClassStands policy declaration.2 :=
  forall_of_foldlM ran fun _ _ _ _ ran => stands_of_registerClass owned names ran

/-- A declaration that is not registered is an import, and the error is what speaks against it. -/
theorem refuses_of_registerClass {failure : AnalysisError}
    (failed : registerClass policy owners subsystems register declaration = .error failure) :
    ∃ source, declaration.2.importedFrom = some source ∧
      input.Refuses policy declaration.2.name source declaration.1 failure := by
  obtain ⟨into, cls⟩ := declaration
  simp only [registerClass, standing] at failed
  cases imported : cls.importedFrom with
  | none => simp [imported] at failed
  | some source =>
    refine ⟨source, rfl, ?_⟩
    cases found : owners.get? cls.name with
    | some owner =>
      obtain ⟨other, declared, named, rfl⟩ := (owned _ _).mp found
      cases same : sameSubsystem other.1 source with
      | true => simp [imported, found, same] at failed
      | false =>
        simp only [imported, found, same, Bool.false_eq_true, ↓reduceIte, Except.error.injEq] at failed
        exact failed ▸ .elsewhere declared named (of_decide_eq_false same)
    | none =>
      have undeclared := declares_eq_false_iff.mp (owned.get?_eq_none_iff.mp found)
      cases there : subsystems.any (sameSubsystem · source) with
      | true =>
        obtain ⟨subsystem, listed, same⟩ := (any_sameSubsystem_iff names).mp there
        simp only [imported, found, there, ↓reduceIte, Except.error.injEq] at failed
        exact failed ▸ .missing undeclared listed same
      | false =>
        have outside := (any_sameSubsystem_eq_false_iff names).mp there
        cases denies : policy with
        | warn => simp [imported, found, there, denies, -List.any_eq_true, -List.any_eq_false] at failed
        | deny =>
          simp only [imported, found, there, denies, Bool.false_eq_true, ↓reduceIte,
            Except.error.injEq] at failed
          exact failed ▸ .outside undeclared outside rfl

end Classes

/-- If all declarations stand, the register has the classes that the run has. -/
theorem contains_iff_provides {input : ModelInput} {policy : ImportPolicy} {register : ClassRegister}
    (registers : Registers input input.classDeclarations register)
    (stand : ∀ declaration ∈ input.classDeclarations, input.ClassStands policy declaration.2)
    {className : Name} :
    register.classes.contains className = true ↔ input.Provides policy className := by
  rw [registers.classes.known_iff, List.mem_map]
  constructor
  · rintro ⟨declaration, entered, rfl⟩
    obtain ⟨listed, brings⟩ := List.mem_filter.mp entered
    cases imported : declaration.2.importedFrom with
    | none =>
      have own : (!declaration.2.isImport) = true := by simp [Declaration.Class.isImport, imported]
      exact .inl ⟨declaration, List.mem_filter.mpr ⟨listed, own⟩, rfl⟩
    | some source =>
      have undeclared : input.declares declaration.2.name = false := by
        simpa [bringsIn, isLate, Declaration.Class.isImport, imported] using brings
      -- an import that stands though its class is not declared passes late
      rcases stand declaration listed source imported with ⟨other, declared, named, _⟩ | passes
      · exact absurd named (declares_eq_false_iff.mp undeclared other declared)
      · exact .inr ⟨declaration, listed, rfl, source, imported, passes⟩
  · rintro (⟨declaration, declared, rfl⟩ | ⟨declaration, listed, rfl, source, imported, passes⟩)
    · obtain ⟨listed, own⟩ := List.mem_filter.mp declared
      exact ⟨declaration, List.mem_filter.mpr ⟨listed, by rw [bringsIn, own, Bool.true_or]⟩, rfl⟩
    · have undeclared := declares_eq_false_iff.mpr passes.undeclared
      have brings : input.bringsIn declaration = true := by
        simp [bringsIn, isLate, Declaration.Class.isImport, imported, undeclared]
      exact ⟨declaration, List.mem_filter.mpr ⟨listed, brings⟩, rfl⟩

section Relationships

variable {input : ModelInput} {policy : ImportPolicy} {classes : Table Name Resolved.Class}
  (provided : ∀ className, classes.contains className = true ↔ input.Provides policy className)
  {declaration : Name × Declaration.Relationship}

include provided

theorem relationshipFault?_eq_none_iff_stands :
    relationshipFault? classes (.ofDeclaration declaration) = none ↔
      input.RelationshipStands policy declaration.2 := by
  rw [relationshipFault?_eq_none_iff]
  simp only [← Table.contains_eq_true_iff, provided, Shape.isPlainReflexive_iff]
  exact ⟨fun both => ⟨both.1, both.2⟩, fun stands => ⟨stands.classNames, stands.reflexive⟩⟩

/-- The fault of a relationship is what speaks against it. -/
theorem spoils_of_relationshipFault? {failure : AnalysisError}
    (fault : relationshipFault? classes (.ofDeclaration declaration) = some failure) :
    input.Spoils policy declaration.1 declaration.2 failure := by
  unfold relationshipFault? at fault
  split at fault
  · rename_i unknown found
    cases fault
    obtain ⟨absent, before, after, listed, known⟩ := List.find?_eq_some_iff_append.mp found
    refine .unknown listed (fun other earlier => (provided other).mp ?_) fun provides => ?_
    · simpa using known other earlier
    · rw [(provided unknown).mpr provides] at absent
      cases absent
  · rename_i found
    have known : ∀ className ∈ declaration.2.shape.classNames, input.Provides policy className := by
      intro className listed
      rw [← provided]
      simpa using List.find?_eq_none.mp found className listed
    split at fault
    · rename_i bad
      cases fault
      obtain ⟨ordinal, other⟩ := Bool.and_eq_true_iff.mp bad
      refine .shape known ordinal fun passive active shape same => ?_
      have reflexive : declaration.2.shape.isPlainReflexive = true :=
        Shape.isPlainReflexive_iff.mpr ⟨passive, active, shape, same⟩
      simp [Resolved.Relationship.ofDeclaration, reflexive] at other
    · cases fault

end Relationships

section Repeats

variable {input : ModelInput} {policy : ImportPolicy} {failure : AnalysisError}

theorem breaks_of_registerSubsystem
    (failed : input.subsystems.foldlM registerSubsystem .empty = .error failure) :
    input.Breaks policy failure := by
  obtain ⟨before, subsystem, after, known, listed, ran, failed⟩ := foldlM_eq_error_iff.mp failed
  obtain ⟨distinct, entries⟩ := foldlM_registerSubsystem_eq_ok_iff.mp ran
  unfold registerSubsystem at failed
  split at failed
  · rename_i taken
    cases failed
    rw [Table.contains_iff, Table.keys, entries, List.map_map] at taken
    obtain ⟨first, earlier, same⟩ := List.mem_map.mp taken
    exact .subsystem listed distinct earlier same
  · cases failed

variable (subsystems : input.DistinctSubsystems)

include subsystems

theorem breaks_of_registerOwner
    (failed : input.classDeclarations.foldlM registerOwner .empty = .error failure) :
    input.Breaks policy failure := by
  obtain ⟨before, ⟨into, cls⟩, after, owners, listed, ran, failed⟩ := foldlM_eq_error_iff.mp failed
  obtain ⟨distinct, entries⟩ := foldlM_registerOwner_filter_eq_ok_iff.mp ran
  cases own : cls.isImport with
  | true => simp [registerOwner, own] at failed
  | false =>
    have declared : ownDeclarations input =
        before.filter (!·.2.isImport) ++ (into, cls) :: after.filter (!·.2.isImport) := by
      simp [ownDeclarations, listed, own]
    cases found : owners.get? cls.name with
    | none => simp [registerOwner, own, found] at failed
    | some owner =>
      simp only [registerOwner, own, found, Bool.false_eq_true, ↓reduceIte, Except.error.injEq] at failed
      rw [Table.get?_eq_some_iff, entries] at found
      obtain ⟨first, earlier, same⟩ := List.mem_map.mp found
      obtain ⟨again, rfl⟩ := Prod.mk.inj same
      exact failed ▸ .cls subsystems declared distinct earlier again

theorem breaks_of_registerRelationship (classes : input.DistinctClasses)
    (failed : input.relationshipDeclarations.foldlM registerRelationship .empty = .error failure) :
    input.Breaks policy failure := by
  obtain ⟨before, ⟨into, relationship⟩, after, known, listed, ran, failed⟩ := foldlM_eq_error_iff.mp failed
  obtain ⟨distinct, entries⟩ := foldlM_registerRelationship_eq_ok_iff.mp ran
  cases found : known.get? relationship.rnum with
  | none => simp [registerRelationship, found] at failed
  | some other =>
    simp only [registerRelationship, found, Except.error.injEq] at failed
    rw [Table.get?_eq_some_iff, entries] at found
    obtain ⟨first, earlier, same⟩ := List.mem_map.mp found
    obtain ⟨again, rfl⟩ := Prod.mk.inj same
    exact failed ▸ .rnum subsystems classes listed distinct earlier again

end Repeats

section Tables

variable {input : ModelInput}

theorem keys_of_registerSubsystem {known : Table Name Resolved.Subsystem}
    (success : input.subsystems.foldlM registerSubsystem .empty = .ok known) :
    known.keys = input.subsystems.map (·.name) := by
  rw [Table.keys, (foldlM_registerSubsystem_eq_ok_iff.mp success).2, List.map_map]
  rfl

theorem values_of_registerRelationship {known : Table Rnum Resolved.Relationship}
    (success : input.relationshipDeclarations.foldlM registerRelationship .empty = .ok known) :
    known.values = input.relationshipDeclarations.map .ofDeclaration := by
  rw [Table.values, (foldlM_registerRelationship_eq_ok_iff.mp success).2, List.map_map]
  rfl

end Tables

section Merging

variable {input : ModelInput} {options : AnalysisOptions}

theorem consistent_of_ok {merged : Merged} (success : ofInput input options = .ok merged) :
    input.Consistent options.importPolicy := by
  obtain ⟨owners, known, registered, related, entered, sound⟩ := ofInput_eq_ok_iff.mp success
  have owned := owners_of_registered registered
  have imports := stand_of_foldlM_registerClass owned (keys_of_registerSubsystem known) entered
  refine ⟨(foldlM_registerSubsystem_eq_ok_iff.mp known).1, (foldlM_registerOwner_eq_ok_iff.mp registered).1,
    (foldlM_registerRelationship_eq_ok_iff.mp related).1, imports, fun declaration listed => ?_⟩
  refine (relationshipFault?_eq_none_iff_stands fun _ =>
    contains_iff_provides (registers_of_foldlM owned entered) imports).mp (sound _ ?_)
  rw [values_of_registerRelationship related]
  exact List.mem_map_of_mem listed

/-- The error of a run of declarations that do not merge is about the first rule that they break. -/
theorem breaks_of_error {failure : AnalysisError} (failed : ofInput input options = .error failure) :
    input.Breaks options.importPolicy failure := by
  unfold ofInput at failed
  rcases bind_eq_error_iff.mp failed with failed | ⟨known, ran, failed⟩
  · exact breaks_of_registerSubsystem failed
  have subsystems : input.DistinctSubsystems := (foldlM_registerSubsystem_eq_ok_iff.mp ran).1
  have names := keys_of_registerSubsystem ran
  rcases bind_eq_error_iff.mp failed with failed | ⟨owners, registered, failed⟩
  · exact breaks_of_registerOwner subsystems failed
  have classes : input.DistinctClasses := (foldlM_registerOwner_eq_ok_iff.mp registered).1
  have owned := owners_of_registered registered
  rcases bind_eq_error_iff.mp failed with failed | ⟨relationships, related, failed⟩
  · exact breaks_of_registerRelationship subsystems classes failed
  have rnums : input.DistinctRelationships := (foldlM_registerRelationship_eq_ok_iff.mp related).1
  rcases bind_eq_error_iff.mp failed with failed | ⟨register, entered, failed⟩
  · obtain ⟨before, declaration, after, register, listed, ran, failed⟩ := foldlM_eq_error_iff.mp failed
    obtain ⟨source, imported, refuses⟩ := refuses_of_registerClass owned names failed
    have stand := stand_of_foldlM_registerClass owned names ran
    exact .importing subsystems classes rnums listed stand imported refuses
  have imports := stand_of_foldlM_registerClass owned names entered
  have provided : ∀ className,
      register.classes.contains className = true ↔ input.Provides options.importPolicy className :=
    fun _ => contains_iff_provides (registers_of_foldlM owned entered) imports
  split at failed
  · rename_i fault found
    cases failed
    rw [values_of_registerRelationship related, List.findSome?_map] at found
    obtain ⟨before, declaration, after, listed, fault, sound⟩ := List.findSome?_eq_some_iff.mp found
    refine .relationship subsystems classes rnums imports listed (fun other earlier => ?_)
      (spoils_of_relationshipFault? provided fault)
    exact (relationshipFault?_eq_none_iff_stands provided).mp (sound other earlier)
  · cases failed

/-- Declarations merge exactly if they are consistent, and otherwise the error is about the first rule that
they break. -/
theorem ofInput_exact (input : ModelInput) (options : AnalysisOptions) :
    ((∃ merged, ofInput input options = .ok merged) ↔ input.Consistent options.importPolicy) ∧
      ∀ failure, ofInput input options = .error failure → input.Breaks options.importPolicy failure := by
  refine ⟨⟨fun ⟨_, success⟩ => consistent_of_ok success, fun consistent => ?_⟩,
    fun _ failed => breaks_of_error failed⟩
  cases ran : ofInput input options with
  | ok merged => exact ⟨merged, rfl⟩
  | error failure => exact absurd consistent (breaks_of_error ran).not_consistent

end Merging

end Merged

namespace Sample

/-- A nurse works shifts, which come from a calendar that is not part of the run, and wards stand in an
order. -/
def clinic : ModelInput :=
  { subsystems := [
      { name := "Staff"
        classes := [
          { name := "Nurse" }, { name := "Shift", importedFrom := some "Calendar" },
          { name := "Ward", importedFrom := some "WARDS" }]
        relationships := [
          ⟨⟨"R1"⟩, .association ⟨"Nurse", "works", .many, false⟩ ⟨"Shift", "is worked by", .many, false⟩
            none⟩] },
      { name := "Wards"
        classes := [{ name := "Ward" }]
        relationships := [
          ⟨⟨"OR1"⟩, .association ⟨"Ward", "is above", .one, true⟩ ⟨"Ward", "is below", .one, true⟩
            none⟩] }] }

end Sample

/-- Without the calendar the clinic merges only if that is let through. -/
theorem Merged.ofInput_exact_clinic : Sample.clinic.Consistent .warn ∧
    Merged.ofInput Sample.clinic ⟨.deny⟩ =
      .error (.importFromMissingSubsystem "Shift" "Calendar" "Staff") ∧
    Sample.clinic.Breaks .deny (.importFromMissingSubsystem "Shift" "Calendar" "Staff") := by
  have warned : (Merged.ofInput Sample.clinic ⟨.warn⟩).toOption.isSome = true := by decide +kernel
  have denied : Merged.ofInput Sample.clinic ⟨.deny⟩ =
      .error (.importFromMissingSubsystem "Shift" "Calendar" "Staff") := by decide +kernel
  obtain ⟨merged, success⟩ := Option.isSome_iff_exists.mp warned
  exact ⟨(ofInput_exact _ _).1.mp ⟨merged, toOption_eq_some_iff.mp success⟩, denied,
    (ofInput_exact _ _).2 _ denied⟩

end ClassModel
