import ClassModel.Proofs.ClassTables

/-! # Singleton classes

Whether a class is a singleton is read off the table of its identifier groups, which has to have one
entry and no members of I. If no attribute is a member of a group, the table has the group I without
members, and the class is a singleton. So is a class whose attributes are members of I2 alone, or of I3
alone: its table has one entry as well, and none for I.
-/

namespace ClassModel

namespace Identifiers

variable {identifiers : Identifiers}

theorem mem_defined_iff {group : IdGroup} :
    group ∈ identifiers.defined ↔ ∃ members, identifiers.members? group = some members := by
  simp only [defined, List.mem_map, Prod.exists, mem_groups_iff, exists_and_right, exists_eq_right]

/-- A singleton defines one group, and none of its attributes are members of I. -/
theorem isSingleton_iff : identifiers.isSingleton = true ↔
    (∃ only, ∀ group, group ∈ identifiers.defined ↔ group = only) ∧ identifiers.members .first = [] := by
  have counted : identifiers.groups.length = identifiers.defined.length := (List.length_map _).symm
  rw [isSingleton, Bool.and_eq_true, beq_iff_eq, List.isEmpty_iff, counted, List.length_eq_one_iff]
  simp only [eq_singleton_iff_of_nodup identifiers.nodup_defined]

variable {attributes : List Declaration.Attribute}

theorem Restates.mem_members_iff (restates : identifiers.Restates attributes) {group : IdGroup}
    {name : Name} : name ∈ identifiers.members group ↔
      ∃ attr ∈ attributes, group ∈ attr.identifiers ∧ attr.name = name := by
  cases found : identifiers.members? group with
  | none =>
    have unlisted : ¬ ∃ attr ∈ attributes, group ∈ attr.identifiers := fun listed => by
      obtain ⟨_, defined⟩ := (restates.defined group).mpr (.inl listed)
      rw [found] at defined
      cases defined
    rw [Identifiers.members, found]
    exact iff_of_false List.not_mem_nil fun ⟨attr, declared, member, _⟩ => unlisted ⟨attr, declared, member⟩
  | some listed =>
    rw [Identifiers.members, found, Option.getD_some, restates.members _ _ found, List.mem_eraseDups]
    simp [and_assoc]

/-- The groups of a class that is not without memberships are those of its memberships. -/
theorem Restates.isSingleton_iff (restates : identifiers.Restates attributes) :
    identifiers.isSingleton = true ↔ (∀ attr ∈ attributes, attr.identifiers = []) ∨
      ∃ only, only ≠ .first ∧ ∀ group, (∃ attr ∈ attributes, group ∈ attr.identifiers) ↔ group = only := by
  have memberless : identifiers.members .first = [] ↔ ∀ attr ∈ attributes, .first ∉ attr.identifiers := by
    simp only [List.eq_nil_iff_forall_not_mem, restates.mem_members_iff, not_exists, not_and]
    exact ⟨fun empty attr declared member => empty attr.name attr declared member rfl,
      fun outside _ attr declared member _ => outside attr declared member⟩
  simp only [Identifiers.isSingleton_iff, mem_defined_iff, restates.defined, memberless]
  constructor
  · rintro ⟨⟨only, defined⟩, outside⟩
    by_cases without : ∀ attr ∈ attributes, attr.identifiers = []
    · exact .inl without
    · simp only [without, and_false, or_false] at defined
      refine .inr ⟨only, ?_, defined⟩
      rintro rfl
      obtain ⟨attr, declared, member⟩ := (defined .first).mpr rfl
      exact outside attr declared member
  · rintro (without | ⟨only, other, defined⟩)
    · refine ⟨⟨.first, fun group => ?_⟩, fun attr declared => by simp [without attr declared]⟩
      rw [and_iff_left without, or_iff_right]
      rintro ⟨attr, declared, member⟩
      rw [without attr declared] at member
      cases member
    · refine ⟨⟨only, fun group => ?_⟩, fun attr declared member =>
        other ((defined .first).mp ⟨attr, declared, member⟩).symm⟩
      obtain ⟨attr, declared, member⟩ := (defined only).mpr rfl
      rw [← defined, or_iff_left]
      rintro ⟨_, without⟩
      rw [without attr declared] at member
      cases member

end Identifiers

/-- The identifier groups that the regular attributes of a class are members of. -/
def Resolved.Class.memberships (cls : Class) : Set IdGroup :=
  {group | ∃ attr ∈ cls.attributes, group ∈ attr.identifiers}

/-- A class has the memberships of its declaration. -/
theorem Resolved.Class.Restates.memberships_eq {cls : Class} {declaration : Name × Declaration.Class}
    (restates : cls.Restates declaration) :
    cls.memberships = {group | ∃ attr ∈ declaration.2.attributes, group ∈ attr.identifiers} := by
  ext group
  constructor
  · rintro ⟨attr, listed, member⟩
    obtain ⟨declared, alsoListed, same⟩ := exists_left_of_forall₂ restates.attributes.flip listed
    exact ⟨declared, alsoListed, same.identifiers ▸ member⟩
  · rintro ⟨declared, listed, member⟩
    obtain ⟨attr, alsoListed, same⟩ := exists_left_of_forall₂ restates.attributes listed
    exact ⟨attr, alsoListed, same.identifiers ▸ member⟩

/-- A class is a singleton by its groups if its declaration has no memberships, and also if all of them are in
one group other than I. -/
theorem Resolved.Class.Restates.isSingleton_iff {cls : Class} {declaration : Name × Declaration.Class}
    (restates : cls.Restates declaration) : cls.identifiers.isSingleton = true ↔
      cls.memberships = ∅ ∨ ∃ only, only ≠ .first ∧ cls.memberships = {only} := by
  rw [restates.memberships_eq, restates.identifiers.isSingleton_iff]
  refine or_congr ?_ (exists_congr fun only => and_congr_right fun _ => Set.ext_iff.symm)
  simp only [Set.eq_empty_iff_forall_notMem, Set.mem_ofPred_eq, not_exists, not_and,
    List.eq_nil_iff_forall_not_mem]
  exact ⟨fun without group attr declared => without attr declared group,
    fun without attr declared group => without group attr declared⟩

/-- Every class of a model restates a declaration. -/
theorem Analysis.exists_restates {input : ModelInput} {options : AnalysisOptions} {analysis : Analysis}
    (ran : ofInput input options = .ok analysis) {className : Name} {cls : Resolved.Class}
    (found : analysis.model.classes.get? className = some cls) : ∃ declaration, cls.Restates declaration := by
  obtain ⟨merging, navigating, _⟩ := ofInput_eq_ok_iff.mp ran
  obtain ⟨original, known, rfl⟩ := get?_classes_model.mp found
  have restated := Merged.restates_entering merging navigating className
  rw [known] at restated
  generalize input.entering.find? _ = first at restated
  cases restated with
  | some restates => exact ⟨_, restates.annotate _⟩

namespace Model

/-- A class of a model is a singleton exactly if no regular attribute of it is a member of an identifier
group, or all memberships are in I2, or all are in I3. -/
theorem singletons_recognized {input : ModelInput} {options : AnalysisOptions} {model : Model}
    (success : analyze input options = .ok model) {className : Name} {cls : Resolved.Class}
    (known : model.classes.get? className = some cls) : cls.identifiers.isSingleton = true ↔
      cls.memberships = ∅ ∨ cls.memberships = {.second} ∨ cls.memberships = {.third} := by
  obtain ⟨analysis, ran, rfl⟩ := analyze_eq_ok_iff.mp success
  obtain ⟨declaration, restates⟩ := Analysis.exists_restates ran known
  rw [restates.isSingleton_iff]
  refine or_congr_right ⟨?_, ?_⟩
  · rintro ⟨_ | _ | _, other, same⟩
    · exact absurd rfl other
    · exact .inl same
    · exact .inr same
  · rintro (same | same)
    · exact ⟨.second, by decide, same⟩
    · exact ⟨.third, by decide, same⟩

end Model

namespace Sample

/-- A harbour with a light, which is the only one, and a crane with the given identifier groups. -/
def harbour (groups : List IdGroup) : ModelInput :=
  { subsystems := [
      { name := "Harbour"
        classes := [
          { name := "Light", attributes := [{ name := "Colour", scalar := some "Colour" }] },
          { name := "Crane"
            attributes := [
              { name := "Number", scalar := some "Number", identifiers := groups },
              { name := "Quay", scalar := some "Number" }] }] }] }

end Sample

namespace Model

/-- The light has no memberships and is a singleton; the crane, which is none, has some. -/
theorem singletons_recognized_harbour : ∃ model light crane,
    analyze (Sample.harbour [.first]) = .ok model ∧ model.classes.get? "Light" = some light ∧
    model.classes.get? "Crane" = some crane ∧ light.memberships = ∅ ∧
    light.identifiers.isSingleton = true ∧ crane.identifiers.isSingleton = false ∧
    crane.memberships ≠ ∅ := by
  have ran : ((analyze (Sample.harbour [.first])).toOption.bind fun model =>
      (model.classes.get? "Light").bind fun light => (model.classes.get? "Crane").map fun crane =>
        (light.attributes.flatMap (·.identifiers), crane.identifiers.isSingleton)) = some ([], false) := by
    decide +kernel
  simp only [Option.bind_eq_some_iff, Option.map_eq_some_iff, toOption_eq_some_iff, Prod.mk.injEq] at ran
  obtain ⟨model, success, light, lit, crane, craned, groups, several⟩ := ran
  have without : light.memberships = ∅ := by
    refine Set.eq_empty_of_forall_notMem fun group member => ?_
    have listed := List.mem_flatMap.mpr member
    rw [groups] at listed
    cases listed
  refine ⟨model, light, crane, success, lit, craned, without, ?_, several, fun outside => ?_⟩
  · exact (singletons_recognized success lit).mpr (.inl without)
  · have single := (singletons_recognized success craned).mpr (.inl outside)
    rw [several] at single
    cases single

/-- A crane with its number in I2 is a singleton by its groups, although it has a membership. -/
theorem membership_overlooked_harbour : ∃ model crane,
    analyze (Sample.harbour [.second]) = .ok model ∧ model.classes.get? "Crane" = some crane ∧
    IdGroup.second ∈ crane.memberships ∧ crane.identifiers.isSingleton = true := by
  have ran : ((analyze (Sample.harbour [.second])).toOption.bind fun model =>
      (model.classes.get? "Crane").map fun crane =>
        (crane.attributes.flatMap (·.identifiers), crane.identifiers.isSingleton)) = some ([.second], true) := by
    decide +kernel
  simp only [Option.bind_eq_some_iff, Option.map_eq_some_iff, toOption_eq_some_iff, Prod.mk.injEq] at ran
  obtain ⟨model, success, crane, known, groups, single⟩ := ran
  have member : IdGroup.second ∈ crane.attributes.flatMap (·.identifiers) := by
    rw [groups]
    exact List.mem_singleton_self _
  exact ⟨model, crane, success, known, List.mem_flatMap.mp member, single⟩

end Model

end ClassModel
