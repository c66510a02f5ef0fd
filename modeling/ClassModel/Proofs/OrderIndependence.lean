import ClassModel.Proofs.Commuting
import ClassModel.Proofs.Ordinals
import ClassModel.Proofs.Reordering
import ClassModel.Proofs.TypeAgreement

/-! # The order of declarations does not matter

What an analysis finds is the same for every order of the subsystems, and of the classes and
relationships in each of them. Merging and pinning keep it the same up to the numbers of the classes,
references and ordinals do not depend on numbers, and types are determined by the references.
-/

namespace ClassModel

namespace References

theorem Same.symm {left right : References} (same : left.Same right) : right.Same left :=
  ⟨⟨fun name => (same.referential.classes name).symm,
    fun referred rnum => (same.referential.references referred rnum).symm⟩,
    same.ignoredLinks.symm, same.choiceLinks.symm⟩

theorem Linked.of_same {left right : References} (same : left.Same right) {first second : SlotKey}
    (linked : left.Linked first second) : right.Linked first second := by
  cases linked with
  | recorded stored listed mapped =>
    exact .recorded ((same.referential.references ..).symm.trans stored) listed mapped
  | ignored listed => exact .ignored (same.ignoredLinks.mem_iff.mp listed)

/-- The same references between the same attributes agree. -/
theorem Same.agree {leftClasses rightClasses : Table Name Resolved.Class} {left right : References}
    (attributes : slotAttribute? leftClasses = slotAttribute? rightClasses) (same : left.Same right) :
    Agree leftClasses rightClasses left right := by
  refine ⟨fun key => by rw [attributes], ?_, fun link => same.choiceLinks.mem_iff⟩
  funext first second
  exact propext ⟨.of_same same, .of_same same.symm⟩

end References

/-- Without their numbers, classes that are alike are annotated alike where their attributes resolve to the
same types. -/
theorem Typing.annotated_of_same {leftClasses rightClasses : Table Name Resolved.Class} {typing other : Typing}
    (resolved : ∀ className attr, (slotAttribute? leftClasses (className, attr)).isSome = true →
      typing.resolution? className attr = other.resolution? className attr)
    (named : ∀ name cls, leftClasses.get? name = some cls → cls.name = name)
    (alike : (unnumberedClasses leftClasses).Same (unnumberedClasses rightClasses)) :
    (unnumberedClasses (leftClasses.mapValues fun _ cls => typing.annotate cls)).Same
      (unnumberedClasses (rightClasses.mapValues fun _ cls => other.annotate cls)) := by
  intro name
  have found := alike name
  simp only [get?_unnumberedClasses, Table.get?_mapValues, Option.map_map] at found ⊢
  cases known : leftClasses.get? name with
  | none =>
    rw [known, Option.map_none, eq_comm, Option.map_eq_none_iff] at found
    rw [found]
    rfl
  | some cls =>
    rw [known, Option.map_some, eq_comm, Option.map_eq_some_iff] at found
    obtain ⟨peer, held, unnumbered⟩ := found
    obtain rfl := named name cls known
    rw [held, Option.map_some, Option.map_some, Option.some_inj, Function.comp_apply,
      Function.comp_apply, annotate_congr resolved known,
      ← annotate_unnumbered, ← annotate_unnumbered, unnumbered]

theorem slotAttribute?_of_same {left right : Table Name Resolved.Class}
    (same : (unnumberedClasses left).Same (unnumberedClasses right)) :
    slotAttribute? left = slotAttribute? right := by
  have unnumbered : ∀ (classes : Table Name Resolved.Class) key, slotAttribute? classes key =
      ((unnumberedClasses classes).get? key.1).bind (·.attribute? key.2) := by
    intro classes key
    rw [slotAttribute?, get?_unnumberedClasses]
    cases classes.get? key.1 <;> rfl
  funext key
  rw [unnumbered, unnumbered, same]

/-- The ordinals of classes that are alike are the same. -/
theorem ordinalTable_of_same {left right : Table Name Resolved.Class}
    {leftRelationships rightRelationships : Table Rnum Resolved.Relationship}
    (sound : WellFormed leftRelationships left)
    (sameRelationships : leftRelationships.Same rightRelationships)
    (same : (unnumberedClasses left).Same (unnumberedClasses right)) {known : Table Rnum OrdinalInfo}
    (success : ordinalTable leftRelationships left = .ok known) :
    ∃ others, ordinalTable rightRelationships right = .ok others ∧ known.Same others := by
  have outcomes : OrdinalInfo.outcome? left = OrdinalInfo.outcome? right := by
    funext relationship
    rw [← OrdinalInfo.outcome?_unnumbered left, ← OrdinalInfo.outcome?_unnumbered right]
    unfold OrdinalInfo.outcome? OrdinalInfo.classOf?
    simp only [show (unnumberedClasses left).get? = (unnumberedClasses right).get? from funext same]
  have runs := exists_ordinalTable_iff.mp ⟨known, success⟩
  rw [outcomes] at runs
  obtain ⟨others, ran⟩ := exists_ordinalTable_iff.mpr fun relationship listed =>
    runs relationship (sameRelationships.values_perm.mem_iff.mpr listed)
  have numbered : ∀ rnum relationship, rightRelationships.get? rnum = some relationship →
      relationship.rnum = rnum :=
    fun rnum relationship found => sound.rnum rnum relationship ((sameRelationships rnum).trans found)
  refine ⟨others, ran, fun rnum => Option.ext fun info => ?_⟩
  rw [get?_ordinalTable sound.rnum success, get?_ordinalTable numbered ran, outcomes]
  simp only [show ∀ rnum, leftRelationships.get? rnum = rightRelationships.get? rnum from sameRelationships]

theorem Declaration.StateModel.resolve_of_same {left right : Table Name Resolved.Class}
    {leftRelationships rightRelationships : Table Rnum Resolved.Relationship}
    (classes : ∀ name, left.contains name = right.contains name)
    (relationships : ∀ rnum, leftRelationships.contains rnum = rightRelationships.contains rnum) :
    resolve left leftRelationships = resolve right rightRelationships := by
  funext model
  simp only [resolve, ownerFault?, classes, relationships]

/-- Two models that differ in no more than the order of their tables and the numbers of their
classes. -/
structure Model.SameUpToOrder (left right : Model) : Prop where
  subsystems : left.subsystems.Same right.subsystems
  classes : (unnumberedClasses left.classes).Same (unnumberedClasses right.classes)
  relationships : left.relationships.Same right.relationships
  referential : left.referential.Same right.referential
  ordinals : left.ordinals.Same right.ordinals
  scalars : ∀ name, name ∈ left.types.scalars ↔ name ∈ right.types.scalars
  unions : ∀ union, union ∈ left.types.unions ↔ union ∈ right.types.unions
  stateModels : left.stateModels = right.stateModels
  warnings : left.warnings = right.warnings

section Typing

variable {leftRelationships rightRelationships : Table Rnum Resolved.Relationship}
  {leftClasses rightClasses : Table Name Resolved.Class} {left right : References}

/-- The types of classes that are alike, with the same references, are the same. -/
theorem Typing.of_same (sound : WellFormed leftRelationships leftClasses)
    (otherSound : WellFormed rightRelationships rightClasses)
    (matched : References.ofClasses leftRelationships leftClasses = .ok left)
    (otherMatched : References.ofClasses rightRelationships rightClasses = .ok right)
    (alike : (unnumberedClasses leftClasses).Same (unnumberedClasses rightClasses))
    (same : left.Same right) {typing : Typing} {types : TypeTable}
    (typed : ofReferences leftClasses left = .ok typing)
    (tabled : typing.typeTable leftClasses.values = .ok types) :
    ∃ other others, ofReferences rightClasses right = .ok other ∧
      other.typeTable rightClasses.values = .ok others ∧
      (∀ name, name ∈ types.scalars ↔ name ∈ others.scalars) ∧
      (∀ union, union ∈ types.unions ↔ union ∈ others.unions) ∧
      (unnumberedClasses (leftClasses.mapValues fun _ cls => typing.annotate cls)).Same
        (unnumberedClasses (rightClasses.mapValues fun _ cls => other.annotate cls)) := by
  obtain ⟨other, others, otherTyped, otherTabled, holds, otherHolds, resolved⟩ :=
    exists_of_agree (same.agree (slotAttribute?_of_same alike)) sound otherSound matched otherMatched typed tabled
  refine ⟨other, others, otherTyped, otherTabled, fun name => ?_, fun union => ?_, ?_⟩
  · rw [holds.scalars, otherHolds.scalars]
  · rw [holds.unions, otherHolds.unions]
  · exact annotated_of_same resolved sound.className alike

end Typing

namespace Sample

/-- Sailors, in a subsystem of their own, refer to the ships of a harbour. -/
def crews : ModelInput :=
  { subsystems := [
      { name := "Harbour"
        classes := [
          { name := "Ship"
            attributes := [{ name := "Name", scalar := some "Text", identifiers := [.first] }] }] },
      { name := "Crew"
        classes := [
          { name := "Ship", importedFrom := some "Harbour" },
          { name := "Sailor"
            attributes := [
              { name := "Number", scalar := some "Integer", identifiers := [.first] },
              { name := "Ship", relationships := [⟨"R1"⟩] }] }]
        relationships := [
          ⟨⟨"R1"⟩, .association ⟨"Sailor", "mans", .many, false⟩
            ⟨"Ship", "is manned by", .one, false⟩ none⟩] }] }

/-- The same declarations from the last one to the first. -/
def crewsBackwards : ModelInput :=
  { subsystems := (crews.subsystems.map fun subsystem =>
      { subsystem with
        classes := subsystem.classes.reverse
        relationships := subsystem.relationships.reverse }).reverse }

theorem crews_reordered : crews.Reordered crewsBackwards := by
  refine ⟨⟨_, (List.reverse_perm _).symm, ?_⟩, rfl⟩
  rw [crewsBackwards, ← List.map_reverse, List.forall₂_map_right_iff, List.forall₂_same]
  exact fun subsystem _ =>
    ⟨rfl, rfl, rfl, (List.reverse_perm _).symm, (List.reverse_perm _).symm⟩

end Sample

namespace Model

/-- Where a model comes of an input, one comes of the input in another order, and they are the same. -/
theorem exists_of_reordered {left right : ModelInput} (reordered : left.Reordered right) {model : Model}
    (success : analyze left ⟨.deny⟩ = .ok model) :
    ∃ other, analyze right ⟨.deny⟩ = .ok other ∧ model.SameUpToOrder other := by
  obtain ⟨analysis, ran, rfl⟩ := analyze_eq_ok_iff.mp success
  obtain ⟨merging, navigating, matched, ranked, typed, tabled, modelled⟩ :=
    Analysis.ofInput_eq_ok_iff.mp ran
  obtain ⟨merged, otherMerging, alike⟩ := Merged.of_reordered reordered merging
  obtain ⟨classes, otherNavigating, same⟩ :=
    navigateClasses_of_same alike.relationships alike.classes navigating
  have sound := (Merged.wellFormed merging).navigate navigating
  have otherSound := (Merged.wellFormed otherMerging).navigate otherNavigating
  obtain ⟨references, otherMatched, sameReferences⟩ :=
    References.ofClasses_of_same sound alike.relationships same matched
  obtain ⟨ordinals, otherRanked, sameOrdinals⟩ :=
    ordinalTable_of_same sound alike.relationships same ranked
  obtain ⟨typing, types, otherTyped, otherTabled, scalars, unions, annotated⟩ :=
    Typing.of_same sound otherSound matched otherMatched same sameReferences typed tabled
  have contains : ∀ name, analysis.merged.classes.contains name = merged.classes.contains name := by
    intro name
    rw [← contains_unnumberedClasses, alike.classes.contains, contains_unnumberedClasses]
  rw [Declaration.StateModel.resolve_of_same contains alike.relationships.contains,
    reordered.stateModels] at modelled
  let other : Analysis :=
    { merged, classes, references, ordinals, typing, types, stateModels := analysis.stateModels }
  have otherRan : Analysis.ofInput right ⟨.deny⟩ = .ok other :=
    Analysis.ofInput_eq_ok_iff.mpr
      ⟨otherMerging, otherNavigating, otherMatched, otherRanked, otherTyped, otherTabled, modelled⟩
  exact ⟨other.model, analyze_eq_ok_iff.mpr ⟨other, otherRan, rfl⟩, alike.subsystems, annotated,
    alike.relationships, sameReferences.referential, sameOrdinals, scalars, unions, rfl, alike.warnings⟩

/-- The order of the declarations does not matter: an input and the same input in another order both
have a model or both have none, and their models are the same up to the order of their tables and the
numbers of their classes. -/
theorem analyze_reordered {left right : ModelInput} (reordered : left.Reordered right) :
    ((∃ model, analyze left ⟨.deny⟩ = .ok model) ↔ ∃ model, analyze right ⟨.deny⟩ = .ok model) ∧
      ∀ first second, analyze left ⟨.deny⟩ = .ok first → analyze right ⟨.deny⟩ = .ok second →
        first.SameUpToOrder second := by
  refine ⟨⟨?_, ?_⟩, fun first second success also => ?_⟩
  · rintro ⟨model, success⟩
    obtain ⟨other, ran, _⟩ := exists_of_reordered reordered success
    exact ⟨other, ran⟩
  · rintro ⟨model, success⟩
    obtain ⟨other, ran, _⟩ := exists_of_reordered reordered.symm success
    exact ⟨other, ran⟩
  · obtain ⟨other, ran, same⟩ := exists_of_reordered reordered success
    rw [also] at ran
    cases ran
    exact same

/-- Read backwards, the classes of the crews are numbered the other way, and nothing else changes. -/
theorem analyze_reordered_crews : ∃ first second,
    Sample.crews.Reordered Sample.crewsBackwards ∧
    analyze Sample.crews ⟨.deny⟩ = .ok first ∧ analyze Sample.crewsBackwards ⟨.deny⟩ = .ok second ∧
    first.classes.keys = ["Ship", "Sailor"] ∧ second.classes.keys = ["Sailor", "Ship"] ∧
    first.SameUpToOrder second := by
  have ran : ((analyze Sample.crews ⟨.deny⟩).toOption.bind fun first =>
      (analyze Sample.crewsBackwards ⟨.deny⟩).toOption.map fun second =>
        (first.classes.keys, second.classes.keys)) = some (["Ship", "Sailor"], ["Sailor", "Ship"]) := by
    decide +kernel
  simp only [Option.bind_eq_some_iff, Option.map_eq_some_iff, toOption_eq_some_iff, Prod.mk.injEq] at ran
  obtain ⟨first, success, second, also, keys, otherKeys⟩ := ran
  exact ⟨first, second, Sample.crews_reordered, success, also, keys, otherKeys,
    (analyze_reordered Sample.crews_reordered).2 first second success also⟩

end Model

end ClassModel
