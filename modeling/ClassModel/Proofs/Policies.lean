import ClassModel.Proofs.ClassTables

/-! # Strict and lenient imports

Imports of classes that the run declares nowhere are warned of or denied. Up to the first such import both
policies do the same; there the strict one ends with an error in the words of the warning. So an input
passes the strict policy exactly if it passes the lenient one without a warning.
-/

namespace ClassModel

open Merged

/-- How a result where late imports are denied relates to the result where they are warned of: nothing is
warned of besides what is known and the results are the same, or the first import that is warned of is
denied. -/
inductive Agrees {α : Type} (warnings : α → List Diagnostic) (known : List Diagnostic)
    (denied warned : Except AnalysisError α) : Prop where
  | same (equal : denied = warned) (quiet : ∀ result, warned = .ok result → warnings result = known)
  | refused {className source into : Name}
      (failed : denied = .error (.importFromMissingSubsystem className source into))
      (first : ∀ result, warned = .ok result →
        known ++ [lateWarning className source into] <+: warnings result)

namespace Agrees

variable {α β : Type} {warnings : α → List Diagnostic} {later : β → List Diagnostic}
  {known : List Diagnostic} {denied warned : Except AnalysisError α}

/-- What does not depend on the policy and warns of nothing agrees with itself. -/
theorem of_quiet {result : Except AnalysisError α}
    (quiet : ∀ value, result = .ok value → warnings value = known) : Agrees warnings known result result :=
  .same rfl quiet

/-- What agrees after a step that does not depend on the policy agrees with that step. -/
theorem after {step : Except AnalysisError β} {strict lenient : β → Except AnalysisError α}
    (goesOn : ∀ value, step = .ok value → Agrees warnings known (strict value) (lenient value)) :
    Agrees warnings known (step >>= strict) (step >>= lenient) := by
  cases step with
  | error failure => exact .of_quiet fun _ success => by cases success
  | ok value => exact goesOn value rfl

/-- Steps that agree do so one after the other, if the second one keeps the warnings of the first. -/
theorem bind {strict lenient : α → Except AnalysisError β} (agrees : Agrees warnings known denied warned)
    (goesOn : ∀ value, warned = .ok value → Agrees later (warnings value) (strict value) (lenient value))
    (keeps : ∀ value result, lenient value = .ok result → warnings value <+: later result) :
    Agrees later known (denied >>= strict) (warned >>= lenient) := by
  cases agrees with
  | same equal quiet =>
    subst equal
    cases denied with
    | error failure => exact .same rfl fun _ success => by cases success
    | ok value =>
      have onward := goesOn value rfl
      rw [quiet value rfl] at onward
      exact onward
  | refused failed first =>
    subst failed
    refine .refused rfl fun result success => ?_
    obtain ⟨value, ran, success⟩ := bind_eq_ok_iff.mp success
    -- whatever is warned of later, the first warning stays the first
    exact (first value ran).trans (keeps value result success)

/-- What goes on in one way from steps that agree agrees, if it keeps their warnings. -/
theorem bind_same {next : α → Except AnalysisError β} (agrees : Agrees warnings known denied warned)
    (keeps : ∀ value result, next value = .ok result → later result = warnings value) :
    Agrees later known (denied >>= next) (warned >>= next) := by
  refine agrees.bind (fun value _ => .of_quiet (keeps value)) fun value result success => ?_
  rw [keeps value result success]

theorem map {change : α → β} (agrees : Agrees warnings known denied warned)
    (keeps : ∀ value, later (change value) = warnings value) :
    Agrees later known (denied.map change) (warned.map change) := by
  have steps : ∀ first : Except AnalysisError α,
      first.map change = first >>= fun value => .ok (change value) := by
    rintro (_ | _) <;> rfl
  rw [steps, steps]
  refine agrees.bind_same fun value result success => ?_
  cases success
  exact keeps value

end Agrees

namespace Merged

section Registering

variable {owners : Table Name Name} {subsystems : List Name}

/-- Registering never takes a warning back. -/
theorem warnings_registerClass {policy : ImportPolicy} {register next : ClassRegister}
    {declaration : Name × Declaration.Class}
    (ran : registerClass policy owners subsystems register declaration = .ok next) :
    register.warnings <+: next.warnings := by
  rcases registerClass_eq_ok_iff.mp ran with ⟨_, rfl⟩ | ⟨_, _, _, _, _, rfl⟩ | ⟨_, _, _, _, _, rfl⟩
  · rw [ClassRegister.warnings_enter]
  · exact List.prefix_rfl
  · rw [ClassRegister.warnings_enter]
    exact List.prefix_append ..

theorem warnings_foldlM_registerClass {policy : ImportPolicy} {register final : ClassRegister}
    {declarations : List (Name × Declaration.Class)}
    (success : declarations.foldlM (registerClass policy owners subsystems) register = .ok final) :
    register.warnings <+: final.warnings :=
  foldlM_invariant (fun state => register.warnings <+: state.warnings) success List.prefix_rfl
    fun _ _ _ _ holds ran => holds.trans (warnings_registerClass ran)

/-- The policies differ at a declaration only if it is a late import. -/
theorem agrees_registerClass (register : ClassRegister) (declaration : Name × Declaration.Class) :
    Agrees (·.warnings) register.warnings (registerClass .deny owners subsystems register declaration)
      (registerClass .warn owners subsystems register declaration) := by
  obtain ⟨into, cls⟩ := declaration
  cases stands : standing owners subsystems into cls with
  | error failure => exact .same (by simp [registerClass, stands]) (by simp [registerClass, stands])
  | ok role =>
    cases role with
    | own =>
      refine .same (by simp [registerClass, stands]) fun next ran => ?_
      simp only [registerClass, stands, Except.ok.injEq] at ran
      rw [← ran, ClassRegister.warnings_enter]
    | known =>
      refine .same (by simp [registerClass, stands]) fun next ran => ?_
      simp only [registerClass, stands, Except.ok.injEq] at ran
      rw [ran]
    | lateBound source =>
      have failed : registerClass .deny owners subsystems register (into, cls) =
          .error (.importFromMissingSubsystem cls.name source into) := by simp [registerClass, stands]
      refine .refused failed fun next ran => ?_
      simp only [registerClass, stands, Except.ok.injEq] at ran
      rw [← ran, ClassRegister.warnings_enter]
      exact List.prefix_rfl

/-- Over a run of declarations the policies differ from the first late import on. -/
theorem agrees_foldlM_registerClass (declarations : List (Name × Declaration.Class))
    (register : ClassRegister) :
    Agrees (·.warnings) register.warnings
      (declarations.foldlM (registerClass .deny owners subsystems) register)
      (declarations.foldlM (registerClass .warn owners subsystems) register) := by
  induction declarations generalizing register with
  | nil => exact .of_quiet fun _ success => by cases success; rfl
  | cons declaration rest ih =>
    rw [List.foldlM_cons, List.foldlM_cons]
    exact (agrees_registerClass register declaration).bind (fun next _ => ih next)
      fun _ _ success => warnings_foldlM_registerClass success

end Registering

/-- The policies differ in how declarations merge only over late imports. -/
theorem agrees_ofInput (input : ModelInput) :
    Agrees (·.warnings) [] (ofInput input ⟨.deny⟩) (ofInput input ⟨.warn⟩) := by
  unfold ofInput
  refine .after fun known _ => .after fun owners _ => .after fun relationships _ => ?_
  refine (agrees_foldlM_registerClass _ {}).bind_same fun register merged success => ?_
  split at success
  · cases success
  · cases success
    rfl

end Merged

/-- The policies differ in what an analysis works out only over late imports. -/
theorem Analysis.agrees_ofInput (input : ModelInput) :
    Agrees (·.merged.warnings) [] (ofInput input ⟨.deny⟩) (ofInput input ⟨.warn⟩) := by
  unfold ofInput
  refine (Merged.agrees_ofInput input).bind_same fun merged analysis success => ?_
  simp only [bind_eq_ok_iff, Except.ok.injEq] at success
  obtain ⟨_, _, _, _, _, _, _, _, _, _, _, _, rfl⟩ := success
  rfl

/-- How the analyses of an input under both policies relate. -/
structure ModelInput.PoliciesAgree (input : ModelInput) : Prop where
  models : ∀ model, analyze input ⟨.deny⟩ = .ok model ↔
    analyze input ⟨.warn⟩ = .ok model ∧ model.warnings = []
  failures : ∀ failure, analyze input ⟨.deny⟩ = .error failure →
    (∀ className source into, failure ≠ .importFromMissingSubsystem className source into) →
      analyze input ⟨.warn⟩ = .error failure
  warnings : ∀ model, analyze input ⟨.warn⟩ = .ok model →
    List.Forall₂ IsWarningOf input.lateImports model.warnings
  refused : ∀ model warning, analyze input ⟨.warn⟩ = .ok model → model.warnings.head? = some warning →
    ∃ className source into,
      analyze input ⟨.deny⟩ = .error (.importFromMissingSubsystem className source into) ∧
        warning.message = (AnalysisError.importFromMissingSubsystem className source into).message ∧
        warning.className = some className ∧ warning.subsystem = some into

theorem Model.warnings_of_analyze {input : ModelInput} {options : AnalysisOptions} {model : Model}
    (success : analyze input options = .ok model) :
    List.Forall₂ IsWarningOf input.lateImports model.warnings := by
  obtain ⟨analysis, ran, rfl⟩ := analyze_eq_ok_iff.mp success
  obtain ⟨merging, _⟩ := Analysis.ofInput_eq_ok_iff.mp ran
  obtain ⟨owners, _, owned, _, entered, _⟩ := Merged.ofInput_eq_ok_iff.mp merging
  exact (registers_of_foldlM (owners_of_registered owned) entered).warnings

/-- An input passes the strict policy exactly if it passes the lenient one without a warning, and then with
the same model. Otherwise it fails alike under both, unless the strict one denies what the lenient one
warns of first. -/
theorem ModelInput.policies_agree (input : ModelInput) : input.PoliciesAgree := by
  have agrees : Agrees (·.warnings) [] (analyze input ⟨.deny⟩) (analyze input ⟨.warn⟩) :=
    (Analysis.agrees_ofInput input).map fun _ => rfl
  refine ⟨fun model => ?_, fun failure failed other => ?_, fun _ => Model.warnings_of_analyze,
    fun model warning success first => ?_⟩
  · cases agrees with
    | same equal quiet =>
      rw [equal]
      exact ⟨fun success => ⟨success, quiet model success⟩, fun ⟨success, _⟩ => success⟩
    | refused failed first =>
      rw [failed]
      constructor
      · intro success
        cases success
      · rintro ⟨success, none⟩
        have warned := first model success
        rw [none] at warned
        cases List.prefix_nil.mp warned
  · cases agrees with
    | same equal => rw [← equal, failed]
    | refused also =>
      rw [failed] at also
      cases also
      exact absurd rfl (other _ _ _)
  · cases agrees with
    | same _ quiet =>
      rw [quiet model success] at first
      cases first
    | @refused className source into failed warned =>
      obtain ⟨later, listed⟩ := warned model success
      rw [← listed] at first
      cases first
      exact ⟨className, source, into, failed, rfl, rfl, rfl⟩

/-- Both imports of clocks are warned of; where they are denied the analysis ends at the first one. -/
theorem ModelInput.policies_agree_shipping : ∃ model, analyze Sample.shipping ⟨.warn⟩ = .ok model ∧
    model.warnings = [lateWarning "Clock" "Time" "Sales", lateWarning "Clock" "Time" "Shipping"] ∧
    (∃ source, analyze Sample.shipping ⟨.deny⟩ =
      .error (.importFromMissingSubsystem "Clock" source "Sales")) ∧
    Sample.shipping.PoliciesAgree := by
  have ran : (analyze Sample.shipping ⟨.warn⟩).toOption.map (·.warnings) =
      some [lateWarning "Clock" "Time" "Sales", lateWarning "Clock" "Time" "Shipping"] := by decide +kernel
  simp only [Option.map_eq_some_iff, toOption_eq_some_iff] at ran
  obtain ⟨model, success, warnings⟩ := ran
  have agree := ModelInput.policies_agree Sample.shipping
  obtain ⟨className, source, into, failed, _, named, entered⟩ :=
    agree.refused model _ success (by rw [warnings]; rfl)
  obtain rfl := Option.some.inj named
  obtain rfl := Option.some.inj entered
  exact ⟨model, success, warnings, ⟨source, failed⟩, agree⟩

end ClassModel
