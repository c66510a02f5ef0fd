import ClassModel.Proofs.Merging

/-! # The table of classes

A class enters the table by its own declaration or, if the run declares it nowhere, by an import. Of the
declarations that bring in classes the first one of each name makes the class; the classes stand in the
order of these, and are numbered in it. Every import of a class that the run declares nowhere is a
warning, or an error where such imports are denied.
-/

namespace ClassModel

namespace ModelInput

/-- Whether the run declares a class itself and does not only import it. -/
def declares (input : ModelInput) (className : Name) : Bool :=
  (Merged.ownDeclarations input).any (·.2.name = className)

/-- Whether a declaration is an import of a class that the run declares nowhere. -/
def isLate (input : ModelInput) (declaration : Name × Declaration.Class) : Bool :=
  declaration.2.isImport && !input.declares declaration.2.name

/-- Whether a declaration is one of those that classes can come of. -/
def bringsIn (input : ModelInput) (declaration : Name × Declaration.Class) : Bool :=
  !declaration.2.isImport || input.isLate declaration

/-- The declarations that classes can come of. -/
def entering (input : ModelInput) : List (Name × Declaration.Class) :=
  input.classDeclarations.filter input.bringsIn

/-- The imports of classes that the run declares nowhere. -/
def lateImports (input : ModelInput) : List (Name × Declaration.Class) :=
  input.classDeclarations.filter input.isLate

theorem declares_eq_false_iff {input : ModelInput} {className : Name} : input.declares className = false ↔
    ∀ declaration ∈ Merged.ownDeclarations input, declaration.2.name ≠ className := by
  simp [declares]

end ModelInput

namespace Merged

/-- The table of owners that a run registers. -/
def Owners (input : ModelInput) (owners : Table Name Name) : Prop :=
  ∀ className subsystem, owners.get? className = some subsystem ↔
    ∃ declaration ∈ ownDeclarations input, declaration.2.name = className ∧ declaration.1 = subsystem

theorem owners_of_registered {input : ModelInput} {owners : Table Name Name}
    (registered : input.classDeclarations.foldlM registerOwner .empty = .ok owners) : Owners input owners := by
  intro className subsystem
  rw [Table.get?_eq_some_iff, (foldlM_registerOwner_eq_ok_iff.mp registered).2]
  simp only [List.mem_map, Prod.mk.injEq]

theorem Owners.get?_eq_none_iff {input : ModelInput} {owners : Table Name Name} (owned : Owners input owners)
    {className : Name} : owners.get? className = none ↔ input.declares className = false := by
  rw [Option.eq_none_iff_forall_ne_some, ModelInput.declares_eq_false_iff]
  constructor
  · intro absent declaration listed named
    exact absent declaration.1 ((owned _ _).mpr ⟨declaration, listed, named, rfl⟩)
  · intro absent subsystem found
    obtain ⟨declaration, listed, named, _⟩ := (owned _ _).mp found
    exact absent declaration listed named

/-- The classes of a table come of some declarations: the first one of each name makes the class of that
name, and the classes stand and are numbered in the order of these. -/
structure Lists (declarations : List (Name × Declaration.Class)) (classes : Table Name Resolved.Class) :
    Prop where
  names : classes.keys = (declarations.map (·.2.name)).eraseDups
  numbers : classes.values.map (·.number) = (List.range' 1 classes.size).map (Fin.ofNat UInt32.size)
  classes : ∀ className cls, classes.get? className = some cls → ∃ declaration,
    declarations.find? (·.2.name = className) = some declaration ∧
      ∃ number, cls = .ofDeclaration declaration.2 number declaration.1

theorem ClassRegister.warnings_enter (register : ClassRegister) (into : Name) (cls : Declaration.Class) :
    (register.enter into cls).warnings = register.warnings := by
  unfold enter
  split <;> rfl

section Entering

theorem lists_start : Lists [] .empty :=
  ⟨rfl, rfl, fun _ _ found => by simp at found⟩

variable {register : ClassRegister} {declarations : List (Name × Declaration.Class)}
  (lists : Lists declarations register.classes) (declaration : Name × Declaration.Class)

include lists

theorem Lists.known_iff {className : Name} :
    register.classes.contains className = true ↔ className ∈ declarations.map (·.2.name) := by
  rw [Table.contains_iff, lists.names, List.mem_eraseDups]

/-- Entering a class adds its declaration to those that the table comes of. -/
theorem Lists.enter : Lists (declarations ++ [declaration])
    (register.enter declaration.1 declaration.2).classes := by
  -- a name counts for the order where it is met first
  have names : ((declarations ++ [declaration]).map (·.2.name)).eraseDups =
      if declaration.2.name ∈ declarations.map (·.2.name) then register.classes.keys
      else register.classes.keys ++ [declaration.2.name] := by
    rw [List.map_append, List.map_singleton, eraseDups_concat, lists.names]
  cases known : register.classes.contains declaration.2.name with
  | true =>
    rw [ClassRegister.enter, if_pos known]
    refine ⟨?_, lists.numbers, fun className cls found => ?_⟩
    · rw [names, if_pos (lists.known_iff.mp known)]
    · obtain ⟨first, earlier, same⟩ := lists.classes className cls found
      exact ⟨first, by rw [List.find?_append, earlier, Option.some_or], same⟩
  | false =>
    have unlisted : declaration.2.name ∉ declarations.map (·.2.name) := fun listed => by
      rw [lists.known_iff.mpr listed] at known
      cases known
    have entries : (register.enter declaration.1 declaration.2).classes.entries =
        register.classes.entries ++ [(declaration.2.name,
          .ofDeclaration declaration.2 (register.classes.size + 1) declaration.1)] := by
      simp only [ClassRegister.enter, known, Bool.false_eq_true, ↓reduceIte]
      exact Table.entries_insert_of_absent (Table.contains_eq_false_iff.mp known)
    refine ⟨?_, ?_, fun className cls found => ?_⟩
    · rw [names, if_neg unlisted, Table.keys, entries, List.map_append]
      rfl
    · rw [Table.values, Table.size, entries, List.map_append, List.map_append, List.length_append,
        List.length_singleton, List.range'_concat, List.map_append, ← Table.size, ← lists.numbers,
        Nat.one_mul, Nat.add_comm 1]
      rfl
    · rw [Table.get?_eq_some_iff, entries, List.mem_append, List.mem_singleton] at found
      rcases found with earlier | same
      · obtain ⟨first, earlier, same⟩ := lists.classes className cls (Table.get?_eq_some_iff.mpr earlier)
        exact ⟨first, by rw [List.find?_append, earlier, Option.some_or], same⟩
      · cases same
        have none : declarations.find? (·.2.name = declaration.2.name) = none := by simpa using unlisted
        exact ⟨declaration, by simp [List.find?_append, none], _, rfl⟩

end Entering

/-- The warning that a class is imported from a subsystem which is not part of the run. -/
def lateWarning (className source into : Name) : Diagnostic where
  severity := .warning
  code := some AnalysisError.lateBoundImportCode
  message := (AnalysisError.importFromMissingSubsystem className source into).message
  className := some className
  subsystem := some into

/-- Whether a warning is about an import. -/
def IsWarningOf (declaration : Name × Declaration.Class) (warning : Diagnostic) : Prop :=
  ∃ source, declaration.2.importedFrom = some source ∧
    warning = lateWarning declaration.2.name source declaration.1

/-- What a register holds once some declarations of an input are gone through. -/
structure Registers (input : ModelInput) (done : List (Name × Declaration.Class)) (register : ClassRegister) :
    Prop where
  classes : Lists (done.filter input.bringsIn) register.classes
  warnings : List.Forall₂ IsWarningOf (done.filter input.isLate) register.warnings

section Registering

variable {input : ModelInput} {policy : ImportPolicy} {owners : Table Name Name} {subsystems : List Name}
  (owned : Owners input owners)

include owned

/-- Registering a declaration enters its class if it brings one in, and warns if it is a late import. -/
theorem Registers.registerClass {done : List (Name × Declaration.Class)}
    {declaration : Name × Declaration.Class} {register next : ClassRegister}
    (registers : Registers input done register)
    (ran : registerClass policy owners subsystems register declaration = .ok next) :
    Registers input (done ++ [declaration]) next := by
  obtain ⟨into, cls⟩ := declaration
  obtain ⟨classes, warnings⟩ := registers
  rcases registerClass_eq_ok_iff.mp ran with
    ⟨own, rfl⟩ | ⟨source, owner, imported, found, _, rfl⟩ | ⟨source, imported, absent, _, _, rfl⟩
  · have late : input.isLate (into, cls) = false := by
      simp [ModelInput.isLate, Declaration.Class.isImport, own]
    have brings : input.bringsIn (into, cls) = true := by
      simp [ModelInput.bringsIn, Declaration.Class.isImport, own]
    constructor
    · rw [List.filter_append, List.filter_singleton, brings]
      exact classes.enter (into, cls)
    · rw [List.filter_append, List.filter_singleton, late, ClassRegister.warnings_enter]
      simpa using warnings
  · have known : input.declares cls.name = true := by
      rw [← Bool.not_eq_false, ← owned.get?_eq_none_iff, found]
      simp
    have late : input.isLate (into, cls) = false := by
      simp [ModelInput.isLate, known]
    have brings : input.bringsIn (into, cls) = false := by
      simp [ModelInput.bringsIn, late, Declaration.Class.isImport, imported]
    constructor
    · rw [List.filter_append, List.filter_singleton, brings]
      simpa using classes
    · rw [List.filter_append, List.filter_singleton, late]
      simpa using warnings
  · have late : input.isLate (into, cls) = true := by
      simp [ModelInput.isLate, owned.get?_eq_none_iff.mp absent, Declaration.Class.isImport, imported]
    have brings : input.bringsIn (into, cls) = true := by
      simp [ModelInput.bringsIn, late]
    constructor
    · rw [List.filter_append, List.filter_singleton, brings]
      have warned : Lists (done.filter input.bringsIn) (register.warn cls.name source into).classes := classes
      exact warned.enter (into, cls)
    · rw [List.filter_append, List.filter_singleton, late, ClassRegister.warnings_enter]
      exact List.rel_append warnings (.cons ⟨source, imported, rfl⟩ .nil)

theorem registers_of_foldlM {declarations : List (Name × Declaration.Class)} {register : ClassRegister}
    (success : declarations.foldlM (Merged.registerClass policy owners subsystems) {} = .ok register) :
    Registers input declarations register := by
  have start : Registers input [] {} := ⟨lists_start, .nil⟩
  exact foldlM_tracks (Registers input) success start fun _ _ _ _ registers ran =>
    registers.registerClass owned ran

end Registering

end Merged

end ClassModel
