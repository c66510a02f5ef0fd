import ClassModel.Proofs.UnseenChanges

/-! # The numbers of classes

No part of an analysis looks at the numbers of classes: whatever is worked out from classes without
their numbers is what is worked out from the classes themselves.
-/

namespace ClassModel

/-- The class without its number. -/
def Resolved.Class.unnumbered (cls : Resolved.Class) : Resolved.Class := { cls with number := ⟨0, by decide⟩ }

/-- The table of classes without their numbers. -/
def unnumberedClasses (classes : Table Name Resolved.Class) : Table Name Resolved.Class :=
  classes.mapValues fun _ cls => cls.unnumbered

theorem entries_unnumberedClasses (classes : Table Name Resolved.Class) :
    (unnumberedClasses classes).entries =
      classes.entries.map fun entry => (entry.1, entry.2.unnumbered) := rfl

theorem values_unnumberedClasses (classes : Table Name Resolved.Class) :
    (unnumberedClasses classes).values = classes.values.map (·.unnumbered) := by
  simp [Table.values, entries_unnumberedClasses]

theorem keys_unnumberedClasses (classes : Table Name Resolved.Class) :
    (unnumberedClasses classes).keys = classes.keys :=
  Table.keys_mapValues ..

theorem get?_unnumberedClasses (classes : Table Name Resolved.Class) (name : Name) :
    (unnumberedClasses classes).get? name = (classes.get? name).map (·.unnumbered) :=
  Table.get?_mapValues ..

theorem contains_unnumberedClasses (classes : Table Name Resolved.Class) (name : Name) :
    (unnumberedClasses classes).contains name = classes.contains name := by
  rw [Table.contains, Table.contains, get?_unnumberedClasses, Option.isSome_map]

section Pinning

/-- Pinning does not depend on numbers. -/
theorem Resolved.Class.navigate_unnumbered (cls : Class) (endpoints : List Endpoint) :
    cls.unnumbered.navigate endpoints = (cls.navigate endpoints).map (·.unnumbered) := by
  have regular : cls.unnumbered.attributes.mapM (Attribute.navigate cls.unnumbered.name endpoints) =
      cls.attributes.mapM (Attribute.navigate cls.name endpoints) := rfl
  have ignored : cls.unnumbered.ignoredAttributes.mapM (Attribute.navigate cls.unnumbered.name endpoints) =
      cls.ignoredAttributes.mapM (Attribute.navigate cls.name endpoints) := rfl
  unfold navigate
  rw [regular, ignored]
  cases cls.attributes.mapM (Attribute.navigate cls.name endpoints) with
  | error failure => rfl
  | ok attributes =>
    cases cls.ignoredAttributes.mapM (Attribute.navigate cls.name endpoints) <;> rfl

variable {relationships : Table Rnum Resolved.Relationship} {classes : Table Name Resolved.Class}

theorem exists_navigateClasses_iff :
    (∃ navigated, navigateClasses relationships classes = .ok navigated) ↔
      ∀ name cls, (unnumberedClasses classes).get? name = some cls →
        ∃ result, cls.navigate (Endpoint.seenFrom relationships.values name) = .ok result := by
  simp only [navigateClasses, Table.exists_mapValuesM_iff, get?_unnumberedClasses,
    Option.map_eq_some_iff, forall_exists_index, and_imp]
  refine forall_congr' fun name => ⟨?_, ?_⟩
  · rintro runs _ cls known rfl
    obtain ⟨result, ran⟩ := runs cls known
    exact ⟨_, by rw [cls.navigate_unnumbered, ran]; rfl⟩
  · intro runs cls known
    obtain ⟨result, ran⟩ := runs _ cls known rfl
    rw [cls.navigate_unnumbered] at ran
    obtain ⟨result, ran, _⟩ := map_eq_ok_iff.mp ran
    exact ⟨result, ran⟩

/-- Without its number, a navigated class is the class without its number, navigated. -/
theorem get?_unnumbered_navigateClasses {navigated : Table Name Resolved.Class}
    (success : navigateClasses relationships classes = .ok navigated) (name : Name) :
    (unnumberedClasses navigated).get? name = ((unnumberedClasses classes).get? name).bind
      fun cls => (cls.navigate (Endpoint.seenFrom relationships.values name)).toOption := by
  rw [get?_unnumberedClasses, get?_unnumberedClasses]
  obtain ⟨absent, missing⟩ | ⟨cls, result, known, found, ran⟩ := Table.get?_of_mapValuesM success name
  · rw [absent, missing]
    rfl
  · rw [known, found, Option.map_some, Option.map_some, Option.bind_some, cls.navigate_unnumbered, ran]
    rfl

end Pinning

theorem Resolved.Class.isUnseen_unnumbered : IsUnseen unnumbered :=
  ⟨fun _ => rfl, fun _ => rfl, fun _ => rfl, fun _ => rfl⟩

/-- The matches of a class do not depend on numbers. -/
theorem ClassMatches.ofClass_unnumbered (classes : Table Name Resolved.Class)
    (relationships : Table Rnum Resolved.Relationship) (cls : Resolved.Class) :
    ofClass (unnumberedClasses classes) relationships cls.unnumbered =
      ofClass classes relationships cls := by
  unfold ofClass
  rw [unnumberedClasses, matchOver_mapValues Resolved.Class.isUnseen_unnumbered]
  rfl

section Ranking

theorem OrdinalInfo.outcome?_unnumbered (classes : Table Name Resolved.Class)
    (relationship : Resolved.Relationship) :
    outcome? (unnumberedClasses classes) relationship = outcome? classes relationship := by
  have there : classOf? (unnumberedClasses classes) relationship =
      (classOf? classes relationship).map (·.unnumbered) := by
    unfold classOf?
    cases relationship.perspective? .passive with
    | none => rfl
    | some passive => exact get?_unnumberedClasses ..
  unfold outcome?
  rw [there, Option.map_map]
  rfl

end Ranking

theorem Typing.annotate_unnumbered (typing : Typing) (cls : Resolved.Class) :
    typing.annotate cls.unnumbered = (typing.annotate cls).unnumbered := rfl

end ClassModel
