import ClassModel.Proofs.ClassTables
import ClassModel.Proofs.DeclaredTypes
import ClassModel.Proofs.ModelDocuments

/-! # Analysis leaves its models settled

Pinning takes the hints off every attribute, records are entered in the order of their numbers, and a
type table takes up a scalar once. The document of an analyzed model therefore says everything about it.
-/

namespace ClassModel

namespace TypeTable

theorem nodup_addScalar {table : TypeTable} (distinct : table.scalars.Nodup) (name : Name) :
    (table.addScalar name).scalars.Nodup := by
  unfold addScalar containsScalar
  split
  · exact distinct
  · rename_i new
    rw [List.contains_iff_mem] at new
    exact List.nodup_append.mpr ⟨distinct, List.nodup_singleton _, by
      intro known member other same
      rw [List.mem_singleton.mp same]
      exact fun equal => new (equal ▸ member)⟩

theorem nodup_foldl_addScalar {table : TypeTable} (distinct : table.scalars.Nodup) (names : List Name) :
    (names.foldl addScalar table).scalars.Nodup := by
  induction names generalizing table with
  | nil => exact distinct
  | cons name rest ih => exact ih (nodup_addScalar distinct name)

end TypeTable

/-- No type is entered into a type table with scalars that it has. -/
theorem Typing.nodup_scalars {typing : Typing} {classes : List Resolved.Class} {types : TypeTable}
    (tabled : typing.typeTable classes = .ok types) : types.scalars.Nodup := by
  refine foldlM_invariant (fun table => table.scalars.Nodup) tabled List.nodup_nil ?_
  intro resolution _ table next distinct entered
  unfold enterType at entered
  split at entered
  · cases entered
    exact TypeTable.nodup_addScalar distinct _
  · obtain ⟨_, _, rfl⟩ := map_eq_ok_iff.mp (mapError_eq_ok_iff.mp entered)
    exact TypeTable.nodup_foldl_addScalar distinct _

/-- A class whose hints are pinned has none left. -/
theorem Resolved.Class.hints_of_navigate {endpoints : List Endpoint} {cls navigated : Class}
    (success : cls.navigate endpoints = .ok navigated) :
    ∀ attr ∈ navigated.allAttributes, attr.hints = [] := by
  intro attr present
  obtain ⟨original, _, ran⟩ := exists_original success present
  obtain ⟨_, _, rfl⟩ := Attribute.navigate_eq_ok_iff.mp ran
  rfl

namespace Model

section Analyzed

variable {input : ModelInput} {options : AnalysisOptions} {model : Model}

/-- No attribute of an analyzed model has a hint left. -/
theorem hints_of_analyze (success : analyze input options = .ok model) :
    ∀ cls ∈ model.classes.values, ∀ attr ∈ cls.allAttributes, attr.hints = [] := by
  obtain ⟨analysis, ran, rfl⟩ := analyze_eq_ok_iff.mp success
  obtain ⟨_, navigating, _⟩ := Analysis.ofInput_eq_ok_iff.mp ran
  intro cls listed attr present
  obtain ⟨className, known⟩ := Table.mem_values_iff.mp listed
  obtain ⟨navigated, found, rfl⟩ := Analysis.get?_classes_model.mp known
  obtain ⟨original, owned, rfl⟩ := Typing.mem_allAttributes_annotate_iff.mp present
  obtain ⟨_, _, pinned⟩ := get?_navigateClasses navigating found
  exact Resolved.Class.hints_of_navigate pinned original owned

/-- The document of an analyzed model says everything about it. -/
theorem settled_of_analyze (success : analyze input options = .ok model) : model.Settled := by
  have hints := hints_of_analyze success
  obtain ⟨analysis, ran, rfl⟩ := analyze_eq_ok_iff.mp success
  obtain ⟨_, _, matched, _, _, tabled, _⟩ := Analysis.ofInput_eq_ok_iff.mp ran
  obtain ⟨found, _, same⟩ := References.ofClasses_eq_ok_iff.mp matched
  constructor
  · intro entry member
    exact hints _ (List.mem_map_of_mem member)
  · change analysis.references.referential.Ascending
    rw [← same]
    exact ReferentialTable.ascending_ofMatches _ _ _
  · exact Typing.nodup_scalars tabled

end Analyzed

end Model

end ClassModel
