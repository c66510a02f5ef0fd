import ClassModel.Analysis.Endpoints
import ClassModel.Proofs.Merging

/-! # Pinned hints

A hint is pinned to an end that its class sees, which is an end of a relationship that is not
ordinal. Pinning changes nothing of a class but the navigations and hints of its attributes.
-/

namespace ClassModel

namespace Endpoint

/-- A class sees the ends that the relationships that are not ordinal offer it. -/
theorem mem_seenFrom_iff {relationships : List Resolved.Relationship} {className : Name}
    {endpoint : Endpoint} :
    endpoint ∈ seenFrom relationships className ↔ ∃ relationship ∈ relationships,
      relationship.isOrdinal = false ∧ (className, endpoint) ∈ relationship.endpoints := by
  simp only [seenFrom, List.mem_eraseDups, List.mem_map, List.mem_filter, List.mem_flatMap,
    decide_eq_true_eq, Bool.not_eq_eq_eq_not, Bool.not_true]
  constructor
  · rintro ⟨⟨_, _⟩, ⟨⟨relationship, ⟨listed, plain⟩, offered⟩, rfl⟩, rfl⟩
    exact ⟨relationship, listed, plain, offered⟩
  · rintro ⟨relationship, listed, plain, offered⟩
    exact ⟨_, ⟨⟨relationship, ⟨listed, plain⟩, offered⟩, rfl⟩, rfl⟩

theorem nodup_seenFrom (relationships : List Resolved.Relationship) (className : Name) :
    (seenFrom relationships className).Nodup :=
  nodup_eraseDups _

end Endpoint

theorem Resolved.Relationship.rnum_of_mem_endpoints {relationship : Relationship} {className : Name}
    {endpoint : Endpoint} (offered : (className, endpoint) ∈ relationship.endpoints) :
    endpoint.rnum = relationship.rnum := by
  unfold endpoints at offered
  split at offered
  · simp only [List.mem_cons, Prod.mk.injEq, List.not_mem_nil, or_false] at offered
    obtain ⟨_, rfl⟩ | ⟨_, rfl⟩ := offered <;> rfl
  · obtain ⟨_, _, same⟩ := List.mem_map.mp offered
    cases same
    rfl

/-- A hint is pinned when a single end agrees with it. -/
theorem NavigationHint.pin_eq_ok_iff {hint : NavigationHint} {endpoints : List Endpoint}
    {navigation : Navigation} :
    hint.pin endpoints = .ok navigation ↔
      endpoints.filter hint.agrees = [navigation.endpoint] ∧ navigation.rename = hint.rename := by
  obtain ⟨endpoint, rename⟩ := navigation
  unfold pin
  split
  · rename_i none
    simp [none]
  · rename_i only single
    rw [single]
    simp only [Except.ok.injEq, Navigation.mk.injEq, List.cons.injEq, and_true]
    exact and_congr_right fun _ => eq_comm
  · rename_i several _ single
    exact ⟨fun failed => by simp at failed, fun found => absurd found.1 (single _)⟩

namespace Resolved

/-- A navigated attribute is the attribute with its hints replaced by what they are pinned to. -/
theorem Attribute.navigate_eq_ok_iff {className : Name} {endpoints : List Endpoint}
    {attr navigated : Attribute} :
    attr.navigate className endpoints = .ok navigated ↔ ∃ navigations,
      List.Forall₂ (fun hint navigation => hint.pin endpoints = .ok navigation)
        attr.hints navigations ∧
      { attr with navigations := attr.navigations ++ navigations, hints := [] } = navigated := by
  unfold navigate
  simp only [bind_eq_ok_iff, mapM_eq_ok_iff, Except.ok.injEq]
  refine exists_congr fun navigations => and_congr_left' ⟨?_, ?_⟩
  · refine List.Forall₂.imp fun hint navigation ran => ?_
    split at ran
    · simp at ran
    · rename_i pinned
      rw [pinned, Except.ok.inj ran]
  · refine List.Forall₂.imp fun hint navigation pinned => ?_
    rw [pinned]

theorem Class.navigate_eq_ok_iff {endpoints : List Endpoint} {cls navigated : Class} :
    cls.navigate endpoints = .ok navigated ↔ ∃ attributes ignoredAttributes,
      List.Forall₂ (fun attr result => attr.navigate cls.name endpoints = .ok result)
        cls.attributes attributes ∧
      List.Forall₂ (fun attr result => attr.navigate cls.name endpoints = .ok result)
        cls.ignoredAttributes ignoredAttributes ∧
      { cls with attributes, ignoredAttributes } = navigated := by
  unfold navigate
  simp only [bind_eq_ok_iff, mapM_eq_ok_iff, Except.ok.injEq, exists_and_left]

end Resolved

/-- The tables over which references are matched: entries stand under their own names, identifier
groups list attributes of their class without repeats, relationships name classes of the table, and
navigations lead to ends that the class sees. -/
structure WellFormed (relationships : Table Rnum Resolved.Relationship)
    (classes : Table Name Resolved.Class) : Prop where
  className : ∀ name cls, classes.get? name = some cls → cls.name = name
  membersNodup : ∀ name cls, classes.get? name = some cls →
    ∀ group members, cls.identifiers.members? group = some members → members.Nodup
  membersListed : ∀ name cls, classes.get? name = some cls →
    ∀ group members, cls.identifiers.members? group = some members →
      ∀ member ∈ members, member ∈ cls.attributes.map (·.name)
  rnum : ∀ rnum relationship, relationships.get? rnum = some relationship → relationship.rnum = rnum
  classNames : ∀ rnum relationship, relationships.get? rnum = some relationship →
    ∀ name ∈ relationship.shape.classNames, ∃ cls, classes.get? name = some cls
  ordinals : ∀ rnum relationship, relationships.get? rnum = some relationship →
    relationship.isOrdinal = true → relationship.shape.isPlainReflexive = true
  navigations : ∀ name cls, classes.get? name = some cls → ∀ attr ∈ cls.allAttributes,
    ∀ navigation ∈ attr.navigations, navigation.endpoint ∈ Endpoint.seenFrom relationships.values name

namespace Merged

/-- A class as it is declared stands under its name and lists the members of its groups. -/
theorem wellFormed {input : ModelInput} {options : AnalysisOptions} {merged : Merged}
    (success : ofInput input options = .ok merged) :
    WellFormed merged.relationships merged.classes := by
  obtain ⟨owners, _, _, related, entered, sound⟩ := ofInput_eq_ok_iff.mp success
  have declared := @classes_declared _ _ _ _ _ entered
  obtain ⟨_, listed⟩ := foldlM_registerRelationship_eq_ok_iff.mp related
  have numbered : ∀ rnum relationship, merged.relationships.get? rnum = some relationship →
      relationship.rnum = rnum := by
    intro rnum relationship found
    rw [Table.get?_eq_some_iff, listed] at found
    obtain ⟨declaration, _, same⟩ := List.mem_map.mp found
    cases same
    rfl
  have faultless : ∀ rnum relationship, merged.relationships.get? rnum = some relationship →
      relationshipFault? merged.classes relationship = none :=
    fun _ _ found => sound _ (Table.mem_values_of_get? found)
  constructor
  · intro name cls found
    obtain ⟨declaration, _, rfl, number, rfl⟩ := declared found
    rfl
  · intro name cls found group members defined
    obtain ⟨declaration, _, _, number, rfl⟩ := declared found
    exact (Identifiers.members_ofMemberships defined).1
  · intro name cls found group members defined member present
    obtain ⟨declaration, _, _, number, rfl⟩ := declared found
    have listedName := (Identifiers.members_ofMemberships defined).2 member present
    simpa [Resolved.Class.ofDeclaration, Resolved.Attribute.ofDeclaration] using listedName
  · exact numbered
  · exact fun rnum relationship found =>
      (relationshipFault?_eq_none_iff.mp (faultless rnum relationship found)).1
  · exact fun rnum relationship found =>
      (relationshipFault?_eq_none_iff.mp (faultless rnum relationship found)).2
  · intro name cls found attr present navigation navigated
    obtain ⟨declaration, _, _, number, rfl⟩ := declared found
    simp only [Resolved.Class.ofDeclaration, Resolved.Class.allAttributes, List.mem_append,
      List.mem_map] at present
    obtain ⟨_, _, rfl⟩ | ⟨_, _, rfl⟩ := present <;> simp [Resolved.Attribute.ofDeclaration] at navigated

end Merged

namespace Resolved

/-- Pinning keeps everything of a class but the navigations and hints. -/
theorem Class.navigate_keeps {endpoints : List Endpoint} {cls navigated : Class}
    (success : cls.navigate endpoints = .ok navigated) :
    navigated.name = cls.name ∧ navigated.subsystem = cls.subsystem ∧
      navigated.identifiers = cls.identifiers ∧
      navigated.attributes.map (·.name) = cls.attributes.map (·.name) := by
  obtain ⟨attributes, ignored, regular, _, rfl⟩ := navigate_eq_ok_iff.mp success
  refine ⟨rfl, rfl, rfl, map_eq_of_forall₂ regular fun attr result ran => ?_⟩
  obtain ⟨_, _, rfl⟩ := Attribute.navigate_eq_ok_iff.mp ran
  rfl

/-- Every attribute of a navigated class is one of the class, navigated. -/
theorem Class.exists_original {endpoints : List Endpoint} {cls navigated : Class}
    (success : cls.navigate endpoints = .ok navigated) {attr : Attribute}
    (present : attr ∈ navigated.allAttributes) :
    ∃ original ∈ cls.allAttributes, original.navigate cls.name endpoints = .ok attr := by
  obtain ⟨attributes, ignored, regular, others, rfl⟩ := navigate_eq_ok_iff.mp success
  exact exists_left_of_forall₂ (List.rel_append regular others) present

/-- Every navigation of a navigated class was there or leads to an end that the class sees. -/
theorem Class.navigations_of_navigate {endpoints : List Endpoint} {cls navigated : Class}
    (success : cls.navigate endpoints = .ok navigated) {attr : Attribute}
    (present : attr ∈ navigated.allAttributes) {navigation : Navigation}
    (leads : navigation ∈ attr.navigations) :
    (∃ original ∈ cls.allAttributes, navigation ∈ original.navigations) ∨
      navigation.endpoint ∈ endpoints := by
  obtain ⟨original, listed, ran⟩ := exists_original success present
  obtain ⟨navigations, pins, rfl⟩ := Attribute.navigate_eq_ok_iff.mp ran
  rcases List.mem_append.mp leads with known | pinned
  · exact .inl ⟨original, listed, known⟩
  · obtain ⟨hint, _, pin⟩ := exists_left_of_forall₂ pins pinned
    have agreed : navigation.endpoint ∈ endpoints.filter hint.agrees := by
      rw [(NavigationHint.pin_eq_ok_iff.mp pin).1]
      exact List.mem_singleton_self _
    exact .inr (List.mem_filter.mp agreed).1

end Resolved

/-- Each class of the navigated table is the merged class of its name, navigated. -/
theorem get?_navigateClasses {relationships : Table Rnum Resolved.Relationship}
    {merged classes : Table Name Resolved.Class}
    (success : navigateClasses relationships merged = .ok classes) {name : Name}
    {cls : Resolved.Class} (found : classes.get? name = some cls) :
    ∃ original, merged.get? name = some original ∧
      original.navigate (Endpoint.seenFrom relationships.values name) = .ok cls := by
  obtain ⟨_, absent⟩ | ⟨original, result, known, navigated, ran⟩ :=
    Table.get?_of_mapValuesM success name
  · rw [absent] at found
    cases found
  · rw [navigated] at found
    cases found
    exact ⟨original, known, ran⟩

theorem WellFormed.navigate {relationships : Table Rnum Resolved.Relationship}
    {merged classes : Table Name Resolved.Class} (sound : WellFormed relationships merged)
    (success : navigateClasses relationships merged = .ok classes) :
    WellFormed relationships classes := by
  have same : classes.keys = merged.keys := Table.keys_of_mapValuesM success
  constructor
  · intro name cls found
    obtain ⟨original, known, ran⟩ := get?_navigateClasses success found
    exact (Resolved.Class.navigate_keeps ran).1.trans (sound.className _ _ known)
  · intro name cls found group members defined
    obtain ⟨original, known, ran⟩ := get?_navigateClasses success found
    rw [(Resolved.Class.navigate_keeps ran).2.2.1] at defined
    exact sound.membersNodup _ _ known _ _ defined
  · intro name cls found group members defined member present
    obtain ⟨original, known, ran⟩ := get?_navigateClasses success found
    rw [(Resolved.Class.navigate_keeps ran).2.2.1] at defined
    rw [(Resolved.Class.navigate_keeps ran).2.2.2]
    exact sound.membersListed _ _ known _ _ defined member present
  · exact sound.rnum
  · intro rnum relationship found name listed
    rw [← Table.mem_keys_iff, same, Table.mem_keys_iff]
    exact sound.classNames _ _ found _ listed
  · exact sound.ordinals
  · intro name cls found attr present navigation leads
    obtain ⟨original, known, ran⟩ := get?_navigateClasses success found
    rcases Resolved.Class.navigations_of_navigate ran present leads with early | pinned
    · obtain ⟨attr, listed, leads⟩ := early
      exact sound.navigations _ _ known attr listed navigation leads
    · exact pinned

namespace Merged

/-- The classes of a merged state, as they are merged or with their hints pinned. -/
inductive HasClasses (merged : Merged) : Table Name Resolved.Class → Prop where
  | merged : merged.HasClasses merged.classes
  | navigated {classes : Table Name Resolved.Class}
      (navigating : navigateClasses merged.relationships merged.classes = .ok classes) :
      merged.HasClasses classes

theorem HasClasses.wellFormed {input : ModelInput} {options : AnalysisOptions} {merged : Merged}
    {classes : Table Name Resolved.Class} (has : merged.HasClasses classes)
    (merging : ofInput input options = .ok merged) : WellFormed merged.relationships classes := by
  cases has with
  | merged => exact Merged.wellFormed merging
  | navigated navigating => exact (Merged.wellFormed merging).navigate navigating

end Merged

end ClassModel
