import ClassModel.Proofs.FarEnds
import ClassModel.Proofs.Faults

/-! # Which part an error comes from

The parts of an analysis have errors of their own: each kind of error is told by one part only. So an error
also tells what went well, as the parts before it have succeeded.
-/

namespace ClassModel

/-- The parts of an analysis that can fail. -/
inductive AnalysisPart where
  | merging
  | navigating
  | matching
  | ordering
  | typing
  | tabling
  | completing
  deriving DecidableEq

/-- The part of an analysis that an error comes from. -/
def AnalysisError.part : AnalysisError → AnalysisPart
  | .duplicateSubsystem .. | .duplicateClass .. | .duplicateRelationship .. | .importFromWrongSubsystem ..
  | .importOfMissingClass .. | .importFromMissingSubsystem .. | .unknownClassInRelationship ..
  | .ordinalNotReflexive .. => .merging
  | .badNavigation .. => .navigating
  | .duplicateNavigation .. | .redundantRename .. | .unknownReferential .. | .invalidReferential ..
  | .invalidNavigation .. | .badNaming .. | .unmatchedReference .. => .matching
  | .ordinalIdentifierMismatch .. | .ordinalRankingAttribute .. => .ordering
  | .multipleTypeDefinitions .. | .typeNotDefined .. => .typing
  | .conflictingUnionAlias .. => .tabling
  | .unknownLifecycleClass .. | .unknownAssignerRelationship .. | .duplicateState .. | .duplicateEvent ..
  | .unknownEvent .. | .unknownState .. | .duplicateTransition .. | .conflictingCreationEvent .. => .completing

/-- Whether a run fails with errors of one part only. -/
abbrev FailsIn {α : Type} (part : AnalysisPart) (run : Except AnalysisError α) : Prop :=
  FailsOnly (fun failure => failure.part = part) run

theorem Merged.failsIn_ofInput (input : ModelInput) (options : AnalysisOptions) :
    FailsIn .merging (ofInput input options) := by
  refine ⟨fun failure failed => ?_⟩
  cases breaks_of_error failed with
  | subsystem => rfl
  | cls => rfl
  | rnum => rfl
  | importing _ _ _ _ _ _ refuses => cases refuses <;> rfl
  | relationship _ _ _ _ _ _ spoils => cases spoils <;> rfl

section Navigating

theorem Resolved.Attribute.failsIn_navigate (className : Name) (endpoints : List Endpoint)
    (attr : Resolved.Attribute) : FailsIn .navigating (attr.navigate className endpoints) := by
  refine FailsOnly.bind (.mapM fun hint _ => ?_) fun _ => .ok _
  split
  · exact .error rfl
  · exact .ok _

theorem failsIn_navigateClasses (relationships : Table Rnum Resolved.Relationship)
    (classes : Table Name Resolved.Class) : FailsIn .navigating (navigateClasses relationships classes) := by
  refine Table.failsOnly_mapValuesM fun className cls => ?_
  refine FailsOnly.bind (.mapM fun attr _ => attr.failsIn_navigate _ _) fun _ => ?_
  exact FailsOnly.bind (.mapM fun attr _ => attr.failsIn_navigate _ _) fun _ => .ok _

end Navigating

section Matching

variable {relationships : Table Rnum Resolved.Relationship}

theorem MatchingFault.part_eq {cls : Resolved.Class} {failure : AnalysisError}
    (fault : MatchingFault relationships cls failure) : failure.part = .matching := by
  cases fault <;> rfl

theorem References.failsIn_ofClasses {classes : Table Name Resolved.Class}
    (sound : WellFormed relationships classes) : FailsIn .matching (ofClasses relationships classes) :=
  (failsOnly_ofClasses sound).mono fun _ ⟨_, _, fault⟩ => fault.part_eq

end Matching

theorem failsIn_ordinalTable (relationships : Table Rnum Resolved.Relationship)
    (classes : Table Name Resolved.Class) : FailsIn .ordering (ordinalTable relationships classes) := by
  refine .foldlM (fun known relationship _ => ?_) _
  unfold OrdinalInfo.enter
  split
  · split
    · exact .ok _
    · refine FailsOnly.map ?_ _
      unfold OrdinalInfo.ofClass
      dsimp only
      split
      · split
        · exact .ok _
        · exact .error rfl
      · exact .error rfl
  · exact .ok _

section Typing

theorem TypeAssignment.failsIn_resolve (space : TypeSpace) (graph : ChoiceGraph) (known : TypeAssignment)
    (root : Nat) : FailsIn .typing (resolve space graph known root) := by
  unfold resolve
  split
  · exact .ok _
  · dsimp only
    split
    · exact .ok _
    · split
      · exact .error rfl
      · exact .ok _

theorem Typing.failsIn_ofReferences (classes : Table Name Resolved.Class) (references : References) :
    FailsIn .typing (ofReferences classes references) := by
  refine FailsOnly.bind ?_ fun _ => .ok _
  unfold TypeAssignment.ofSpace
  split
  · exact .error rfl
  · refine FailsOnly.bind (.foldlM (fun _ _ _ => TypeAssignment.failsIn_resolve ..) _) fun found => ?_
    split
    · exact .ok _
    · exact .error rfl

theorem Typing.failsIn_typeTable (typing : Typing) (classes : List Resolved.Class) :
    FailsIn .tabling (typing.typeTable classes) := by
  refine .foldlM (fun table resolution _ => ?_) _
  unfold enterType
  split
  · exact .ok _
  · refine ⟨fun failure failed => ?_⟩
    obtain ⟨conflict, _, rfl⟩ := mapError_eq_error_iff.mp failed
    rfl

end Typing

section Completing

namespace Declaration.StateModel

theorem failsIn_completeTable (model : StateModel) (state : State) :
    FailsIn .completing (model.completeTable state) := by
  refine FailsOnly.bind (.foldlM (fun listed transition _ => ?_) _) fun _ => .ok _
  unfold listTransition
  split
  · exact .error rfl
  · split
    · exact .error rfl
    · split
      · exact .error rfl
      · exact .ok _

theorem failsIn_addCreation (model : StateModel) (state event : Name) (creations : List Creation) :
    FailsIn .completing (model.addCreation state event creations) := by
  unfold addCreation
  split
  · exact .error rfl
  · split
    · exact .error rfl
    · exact .ok _

theorem failsIn_completeState (model : StateModel) (done : Completed) (state : State) :
    FailsIn .completing (model.completeState done state) := by
  have closes : ∀ kinded : Resolved.StateKind × List Creation, FailsIn .completing (do
      let transitions ← model.completeTable state
      .ok (⟨done.states ++ [⟨state.name, kinded.1, state.activity, transitions⟩], kinded.2⟩ : Completed)) :=
    fun _ => FailsOnly.bind (failsIn_completeTable ..) fun _ => .ok _
  unfold completeState
  dsimp only
  split
  · exact FailsOnly.bind (failsIn_addCreation ..) fun _ => FailsOnly.bind (.ok _) closes
  · exact FailsOnly.bind (.ok _) closes
  · exact FailsOnly.bind (.ok _) closes

theorem failsIn_normalize (model : StateModel) : FailsIn .completing model.normalize := by
  unfold normalize
  split
  · exact .error rfl
  · exact .error rfl
  · exact FailsOnly.bind (.foldlM (fun _ _ _ => failsIn_completeState ..) _) fun _ => .ok _

theorem failsIn_resolve (classes : Table Name Resolved.Class)
    (relationships : Table Rnum Resolved.Relationship) (model : StateModel) :
    FailsIn .completing (model.resolve classes relationships) := by
  unfold resolve
  split
  · rename_i fault found
    refine .error ?_
    unfold ownerFault? at found
    split at found
    all_goals
      split at found
      · cases found
      · cases found
        rfl
  · exact failsIn_normalize model

end Declaration.StateModel

end Completing

namespace Analysis

/-- Where an analysis fails: in a part, after the parts that it builds on have succeeded. -/
inductive FailsAt (input : ModelInput) (options : AnalysisOptions) (failure : AnalysisError) :
    AnalysisPart → Prop where
  | merging (failed : Merged.ofInput input options = .error failure) : FailsAt input options failure .merging
  | navigating {merged : Merged} (merging : Merged.ofInput input options = .ok merged)
      (failed : navigateClasses merged.relationships merged.classes = .error failure) :
      FailsAt input options failure .navigating
  | matching {merged : Merged} {classes : Table Name Resolved.Class}
      (merging : Merged.ofInput input options = .ok merged)
      (navigating : navigateClasses merged.relationships merged.classes = .ok classes)
      (failed : References.ofClasses merged.relationships classes = .error failure) :
      FailsAt input options failure .matching
  | ordering {merged : Merged} {classes : Table Name Resolved.Class}
      (merging : Merged.ofInput input options = .ok merged)
      (navigating : navigateClasses merged.relationships merged.classes = .ok classes)
      (failed : ordinalTable merged.relationships classes = .error failure) :
      FailsAt input options failure .ordering
  | typing {merged : Merged} {classes : Table Name Resolved.Class} {references : References}
      (merging : Merged.ofInput input options = .ok merged)
      (navigating : navigateClasses merged.relationships merged.classes = .ok classes)
      (matched : References.ofClasses merged.relationships classes = .ok references)
      (failed : Typing.ofReferences classes references = .error failure) :
      FailsAt input options failure .typing
  | tabling {merged : Merged} {classes : Table Name Resolved.Class} {references : References} {typing : Typing}
      (merging : Merged.ofInput input options = .ok merged)
      (navigating : navigateClasses merged.relationships merged.classes = .ok classes)
      (matched : References.ofClasses merged.relationships classes = .ok references)
      (typed : Typing.ofReferences classes references = .ok typing)
      (failed : typing.typeTable classes.values = .error failure) :
      FailsAt input options failure .tabling
  | completing {merged : Merged} (merging : Merged.ofInput input options = .ok merged)
      (failed : input.stateModels.mapM (Declaration.StateModel.resolve merged.classes merged.relationships) =
        .error failure) :
      FailsAt input options failure .completing

variable {input : ModelInput} {options : AnalysisOptions} {failure : AnalysisError}

/-- An analysis fails at the part that its error comes from. -/
theorem failsAt_part (failed : ofInput input options = .error failure) :
    FailsAt input options failure failure.part := by
  rcases bind_eq_error_iff.mp failed with failed | ⟨merged, merging, failed⟩
  · exact (Merged.failsIn_ofInput input options).permits failure failed ▸ .merging failed
  rcases bind_eq_error_iff.mp failed with failed | ⟨classes, navigating, failed⟩
  · exact (failsIn_navigateClasses ..).permits failure failed ▸ .navigating merging failed
  have sound := (Merged.wellFormed merging).navigate navigating
  rcases bind_eq_error_iff.mp failed with failed | ⟨references, matched, failed⟩
  · exact (References.failsIn_ofClasses sound).permits failure failed ▸ .matching merging navigating failed
  rcases bind_eq_error_iff.mp failed with failed | ⟨ordinals, _, failed⟩
  · exact (failsIn_ordinalTable ..).permits failure failed ▸ .ordering merging navigating failed
  rcases bind_eq_error_iff.mp failed with failed | ⟨typing, typed, failed⟩
  · exact (Typing.failsIn_ofReferences ..).permits failure failed ▸ .typing merging navigating matched failed
  rcases bind_eq_error_iff.mp failed with failed | ⟨types, _, failed⟩
  · exact (Typing.failsIn_typeTable ..).permits failure failed ▸
      .tabling merging navigating matched typed failed
  rcases bind_eq_error_iff.mp failed with failed | ⟨stateModels, _, failed⟩
  · have completes : FailsIn .completing (input.stateModels.mapM
        (Declaration.StateModel.resolve merged.classes merged.relationships)) :=
      .mapM fun model _ => Declaration.StateModel.failsIn_resolve ..
    exact completes.permits failure failed ▸ .completing merging failed
  · cases failed

/-- The error of an analysis is one of typing exactly if merging, navigating and matching succeed and typing
fails with it. -/
theorem part_eq_typing_iff (failed : ofInput input options = .error failure) :
    failure.part = .typing ↔
      ∃ merged classes references, Merged.ofInput input options = .ok merged ∧
        navigateClasses merged.relationships merged.classes = .ok classes ∧
        References.ofClasses merged.relationships classes = .ok references ∧
        Typing.ofReferences classes references = .error failure := by
  constructor
  · intro typing
    have fails := typing ▸ failsAt_part failed
    cases fails with
    | typing merging navigating matched fails => exact ⟨_, _, _, merging, navigating, matched, fails⟩
  · rintro ⟨_, _, _, _, _, _, fails⟩
    exact (Typing.failsIn_ofReferences ..).permits failure fails

end Analysis

end ClassModel
