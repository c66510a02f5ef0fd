import ClassModel.Proofs.ErrorParts
import ClassModel.Proofs.PinnedHints

/-! # Navigations that lead astray

Navigating and matching each work out for themselves what a class finds at the far ends of a relationship.
They agree but for the passive side of a reflexive association, which is the only end that a hint can be
pinned to and a reference cannot be made to. A relationship that a class merely navigates is always one
that it refers over.
-/

namespace ClassModel

/-- A hint is resolved to an end if it is pinned to it among the ends that its class sees. -/
def HintPlace.ResolvesTo (relationships : List Resolved.Relationship) (place : HintPlace)
    (endpoint : Endpoint) : Prop :=
  ∃ navigation, place.hint.pin (Endpoint.seenFrom relationships place.cls.name) = .ok navigation ∧
    navigation.endpoint = endpoint

/-- A class refers over the relationships that its hints are resolved to. -/
theorem HintPlace.ResolvesTo.exists_farEnds {relationships : Table Rnum Resolved.Relationship}
    {classes : Table Name Resolved.Class} (sound : WellFormed relationships classes) {place : HintPlace}
    {endpoint : Endpoint} (resolves : place.ResolvesTo relationships.values endpoint) :
    ∃ relationship ends, relationships.get? endpoint.rnum = some relationship ∧
      relationship.farEnds? place.cls.name = some ends := by
  obtain ⟨navigation, pinned, rfl⟩ := resolves
  have agreed : navigation.endpoint ∈
      (Endpoint.seenFrom relationships.values place.cls.name).filter place.hint.agrees := by
    rw [(NavigationHint.pin_eq_ok_iff.mp pinned).1]
    exact List.mem_singleton_self _
  obtain ⟨relationship, ends, related, _, offered⟩ :=
    Endpoint.exists_farEnds sound (List.mem_filter.mp agreed).1
  exact ⟨relationship, ends, related, offered⟩

namespace Merged

variable {input : ModelInput} {options : AnalysisOptions} {merged : Merged}
  {classes : Table Name Resolved.Class}

/-- An attribute that navigates has a hint that is resolved to where it navigates. -/
theorem exists_resolved (merging : ofInput input options = .ok merged)
    (navigating : navigateClasses merged.relationships merged.classes = .ok classes) {cls : Resolved.Class}
    (known : classes.get? cls.name = some cls) {attr : Resolved.Attribute} (owned : attr ∈ cls.allAttributes)
    {navigation : Navigation} (leads : navigation ∈ attr.navigations) :
    ∃ place ∈ HintPlace.ofClasses merged.classes.values, place.cls.name = cls.name ∧
      place.attr.name = attr.name ∧ place.ResolvesTo merged.relationships.values navigation.endpoint := by
  obtain ⟨original, found, ran⟩ := get?_navigateClasses navigating known
  have named : original.name = cls.name := (wellFormed merging).className _ _ found
  obtain ⟨source, listed, pinned⟩ := Resolved.Class.exists_original ran owned
  obtain ⟨navigations, pins, rfl⟩ := Resolved.Attribute.navigate_eq_ok_iff.mp pinned
  rw [navigations_eq_nil merging found source listed, List.nil_append] at leads
  obtain ⟨hint, given, pin⟩ := exists_left_of_forall₂ pins leads
  refine ⟨⟨original, source, hint⟩, ?_, named, rfl, navigation, ?_, rfl⟩
  · exact HintPlace.mem_ofClasses_iff.mpr ⟨Table.mem_values_of_get? found, listed, given⟩
  · rw [named]
    exact pin

/-- An attribute that lists a relationship is merged as one that does. -/
theorem exists_lists (navigating : navigateClasses merged.relationships merged.classes = .ok classes)
    {cls : Resolved.Class} (known : classes.get? cls.name = some cls) {attr : Resolved.Attribute}
    (owned : attr ∈ cls.allAttributes) {rnum : Rnum} (lists : attr.Lists rnum) :
    ∃ original, merged.classes.get? cls.name = some original ∧
      ∃ source ∈ original.allAttributes, source.Lists rnum := by
  obtain ⟨original, found, ran⟩ := get?_navigateClasses navigating known
  obtain ⟨source, listed, pinned⟩ := Resolved.Class.exists_original ran owned
  obtain ⟨navigations, _, rfl⟩ := Resolved.Attribute.navigate_eq_ok_iff.mp pinned
  exact ⟨original, found, source, listed, lists⟩

end Merged

/-- Where an analysis fails at matching, its parts before have succeeded and something is wrong with a class
that they have come to. -/
theorem Analysis.exists_matchingFault {input : ModelInput} {options : AnalysisOptions} {failure : AnalysisError}
    (failed : analyze input options = .error failure) (part : failure.part = .matching) :
    ∃ merged classes cls, Merged.ofInput input options = .ok merged ∧
      navigateClasses merged.relationships merged.classes = .ok classes ∧
      classes.get? cls.name = some cls ∧ MatchingFault merged.relationships cls failure := by
  have fails := part ▸ failsAt_part (map_eq_error_iff.mp failed)
  cases fails with
  | matching merging navigating failed =>
    have sound := (Merged.wellFormed merging).navigate navigating
    obtain ⟨cls, known, fault⟩ := (References.failsOnly_ofClasses sound).permits failure failed
    exact ⟨_, _, cls, merging, navigating, known, fault⟩

/-- Over a relationship that is not ordinal a class can navigate to the sides that it refers to and to no
others, except for the passive side of a reflexive association. So a navigation is invalid only where a hint
is resolved to such a side, and a relationship is unknown, or not one of the class, only where an attribute
lists it and no hint is resolved to it. -/
theorem Merged.ends_agree (input : ModelInput) (options : AnalysisOptions) :
    (∀ merged classes, ofInput input options = .ok merged → merged.HasClasses classes →
      ∀ rnum relationship, merged.relationships.get? rnum = some relationship → relationship.isOrdinal = false →
        ∀ cls : Resolved.Class,
          Endpoint.sidesSeen merged.relationships.values cls.name rnum =
            Partition.sidesReferred classes merged.relationships cls rnum ∪
              {far | relationship.shape.IsReflexiveOn cls.name ∧ far = (.passive, cls.name)} ∧
          (relationship.shape.IsReflexiveOn cls.name →
            Partition.sidesReferred classes merged.relationships cls rnum = {(.active, cls.name)}) ∧
          ∀ failure, Partition.sidesOf classes merged.relationships cls rnum = .error failure →
            failure = .invalidReferential rnum cls.name cls.subsystem ∧
              Endpoint.sidesSeen merged.relationships.values cls.name rnum = ∅) ∧
    (∀ rnum className attr, analyze input options = .error (.invalidNavigation rnum className attr) →
      ∃ merged relationship endpoint, ∃ place ∈ HintPlace.ofClasses merged.classes.values,
        ofInput input options = .ok merged ∧ place.cls.name = className ∧ place.attr.name = attr ∧
        place.ResolvesTo merged.relationships.values endpoint ∧ endpoint.side = .passive ∧
        endpoint.rnum = rnum ∧ merged.relationships.get? rnum = some relationship ∧
        relationship.shape.IsReflexiveOn className) ∧
    ∀ rnum className subsystem failure, analyze input options = .error failure →
      failure = .unknownReferential rnum className subsystem ∨
        failure = .invalidReferential rnum className subsystem →
      ∃ merged cls, ofInput input options = .ok merged ∧ merged.classes.get? className = some cls ∧
        (∃ attr ∈ cls.allAttributes, attr.Lists rnum) ∧
        ∀ place ∈ HintPlace.ofClasses merged.classes.values, place.cls.name = className →
          ∀ endpoint, place.ResolvesTo merged.relationships.values endpoint → endpoint.rnum ≠ rnum := by
  refine ⟨?_, ?_, ?_⟩
  · intro merged classes merging has rnum relationship related plain cls
    have sound := has.wellFormed merging
    exact ⟨Endpoint.sidesSeen_eq sound related plain cls, Partition.sidesReferred_of_reflexive sound related,
      fun failure failed => Partition.sidesSeen_eq_empty sound related plain failed⟩
  · intro rnum className attr failed
    obtain ⟨merged, classes, cls, merging, navigating, known, fault⟩ := Analysis.exists_matchingFault failed rfl
    cases fault with
    | invalidNavigation owned leads astray related reflexive =>
      obtain ⟨place, listed, cls, attr, resolves⟩ := exists_resolved merging navigating known owned leads
      exact ⟨merged, _, _, place, listed, merging, cls, attr, resolves, astray, rfl, related, reflexive⟩
  · intro rnum className subsystem failure failed kind
    have part : failure.part = .matching := by rcases kind with rfl | rfl <;> rfl
    obtain ⟨merged, classes, cls, merging, navigating, known, fault⟩ := Analysis.exists_matchingFault failed part
    obtain ⟨rfl, ⟨attr, owned, lists⟩, apart⟩ := fault.lists kind
    obtain ⟨original, found, source⟩ := exists_lists navigating known owned lists
    refine ⟨merged, original, merging, found, source, ?_⟩
    rintro place _ named endpoint resolves rfl
    obtain ⟨relationship, ends, related, offered⟩ := resolves.exists_farEnds (wellFormed merging)
    rw [named, apart relationship related] at offered
    cases offered

namespace Sample

/-- An employee refers to the one that the employee manages, and not, as a reference must, to the manager. -/
def office : ModelInput :=
  { subsystems := [
      { name := "Office"
        classes := [
          { name := "Employee"
            attributes := [
              { name := "ID", scalar := some "Number", identifiers := [.first] },
              { name := "Managed", hints := [{ phrase := some "is managed by", rename := some "ID" }] }] }]
        relationships := [
          ⟨⟨"R8"⟩, .association ⟨"Employee", "is managed by", .many, true⟩
            ⟨"Employee", "manages", .one, true⟩ none⟩] }] }

end Sample

/-- An employee can navigate to both sides of the management but refers to one, and the hint that is resolved
to the other makes the navigation invalid. -/
theorem Merged.ends_agree_office : ∃ merged endpoint, ∃ place ∈ HintPlace.ofClasses merged.classes.values,
    ofInput Sample.office {} = .ok merged ∧
    analyze Sample.office = .error (.invalidNavigation ⟨"R8"⟩ "Employee" "Managed") ∧
    place.ResolvesTo merged.relationships.values endpoint ∧ place.attr.name = "Managed" ∧
    endpoint.rnum = ⟨"R8"⟩ ∧ endpoint.side = .passive ∧
    Endpoint.sidesSeen merged.relationships.values "Employee" ⟨"R8"⟩ =
      {(.active, "Employee"), (.passive, "Employee")} := by
  have failed : analyze Sample.office = .error (.invalidNavigation ⟨"R8"⟩ "Employee" "Managed") := by
    decide +kernel
  obtain ⟨agree, invalid, _⟩ := ends_agree Sample.office {}
  obtain ⟨merged, relationship, endpoint, place, listed, merging, named, attr, resolves, astray, numbered,
    related, reflexive⟩ := invalid _ _ _ failed
  refine ⟨merged, endpoint, place, listed, merging, failed, resolves, attr, numbered, astray, ?_⟩
  have plain : relationship.isOrdinal = false := by
    rw [Resolved.Relationship.isOrdinal, (wellFormed merging).rnum _ _ related]
    decide
  obtain ⟨seen, refers, _⟩ := agree merged _ merging .merged _ _ related plain place.cls
  rw [refers (named ▸ reflexive), named] at seen
  rw [seen]
  ext far
  simp [reflexive, or_comm]

end ClassModel
