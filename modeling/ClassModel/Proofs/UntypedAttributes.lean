import ClassModel.Proofs.Consistency
import ClassModel.Proofs.ErrorParts

/-! # Attributes without a type

An analysis that misses types lists just the attributes with an empty closure. An attribute without choices
is among them only if nothing is declared for it. One with choices may be among them in spite of a declared
type: if there is nothing to choose from, what is declared is not looked at.
-/

namespace ClassModel

namespace Location

/-- The attribute at a location. -/
def key (location : Location) : SlotKey := (location.className, location.attr)

/-- Whether a location is that of an attribute of the model. -/
def IsOf (classes : Table Name Resolved.Class) (location : Location) : Prop :=
  ∃ cls, classes.get? location.className = some cls ∧ cls.subsystem = location.subsystem ∧
    (cls.attribute? location.attr).isSome = true

end Location

/-- What is declared for an attribute without choices is in its closure. -/
theorem References.hasChoices_of_declared {classes : Table Name Resolved.Class} {references : References}
    {key : SlotKey} (empty : ∀ name, ¬references.Closure classes key name)
    (declared : (∃ scalar, references.DeclaresScalar classes key scalar) ∨
      ∃ members, references.DeclaresUnion classes key members ∧ members.isEmpty = false) :
    references.HasChoices key := by
  by_contra plain
  have undeclared : ∀ name, ¬references.Declares classes key name :=
    fun name declares => empty name ⟨key, .refl, plain, declares⟩
  have unlisted : ∀ members, references.DeclaresUnion classes key members → members.isEmpty = true :=
    fun members listed => NameSet.isEmpty_iff.mpr fun name present =>
      undeclared name (.inl ⟨members, listed, present⟩)
  rcases declared with ⟨scalar, declares⟩ | ⟨members, listed, inhabited⟩
  · exact undeclared scalar (.inr ⟨unlisted, declares⟩)
  · rw [unlisted members listed] at inhabited
    cases inhabited

namespace TypeAssignment

theorem resolve_ne_typeNotDefined {space : TypeSpace} {graph : ChoiceGraph} {known : TypeAssignment}
    {root : Nat} {locations : List Location} :
    resolve space graph known root ≠ .error (.typeNotDefined locations) := by
  unfold resolve
  split
  · simp
  · dsimp only
    split
    · simp
    · split <;> simp

/-- The slots whose sets reach nothing are those that are listed as untyped, in their order. -/
theorem of_typeNotDefined {space : TypeSpace} {graph : ChoiceGraph} {choiceLinks : List AttributeLink}
    {locations : List Location} (same : graph = ⟨space.choiceEdges choiceLinks, space.declaredTypes⟩)
    (failed : ofSpace space choiceLinks = .error (.typeNotDefined locations)) :
    space.conflictingRoot? = none ∧ locations ≠ [] ∧
      locations = (space.members.filter fun member => (graph.typesOf member.2).isEmpty).map
        (·.1.location) := by
  subst same
  unfold ofSpace at failed
  split at failed
  · cases failed
  rename_i consistent
  refine ⟨consistent, ?_⟩
  rcases bind_eq_error_iff.mp failed with failed | ⟨found, ran, failed⟩
  · obtain ⟨_, root, _, _, _, _, failed⟩ := foldlM_eq_error_iff.mp failed
    exact absurd failed resolve_ne_typeNotDefined
  have tracks := foldlM_tracks (Tracks space _) ran tracks_start
    fun done root state next tracks => (tracks.resolve root).2 next
  have untyped : ∀ member ∈ space.members, found.untyped.contains member.2 =
      (ChoiceGraph.typesOf ⟨space.choiceEdges choiceLinks, space.declaredTypes⟩ member.2).isEmpty := by
    intro member present
    have listed : member.2 ∈ space.roots := (List.of_mem_zip present).2
    rw [Bool.eq_iff_iff, List.contains_iff_mem, tracks.untyped]
    exact and_iff_right listed
  rw [List.filter_congr untyped] at failed
  split at failed
  · cases failed
  · rename_i lacking
    cases failed
    exact ⟨by simpa using lacking, rfl⟩

end TypeAssignment

namespace TypeSpace

section Locating

variable {classes : Table Name Resolved.Class} {references : References} {space : TypeSpace}
  (divides : space.Divides classes references.Equal)
  (named : ∀ name cls, classes.get? name = some cls → cls.name = name)

include divides named

/-- A location has a slot exactly if it is that of an attribute, and only that slot. -/
theorem Divides.location_iff {key : SlotKey} {location : Location} :
    (∃ slot, space.slots.get? key = some slot ∧ slot.location = location) ↔
      location.IsOf classes ∧ location.key = key := by
  rw [divides.slots]
  constructor
  · rintro ⟨slot, entered, rfl⟩
    obtain ⟨cls, known, entered⟩ := Option.bind_eq_some_iff.mp entered
    obtain ⟨attr, found, rfl⟩ := Option.map_eq_some_iff.mp entered
    have own : attr.name = key.2 := by simpa using List.find?_some found
    obtain ⟨className, _⟩ := key
    obtain rfl : cls.name = className := named className cls known
    obtain rfl : attr.name = _ := own
    exact ⟨⟨cls, known, rfl, Option.isSome_iff_exists.mpr ⟨attr, found⟩⟩, rfl⟩
  · rintro ⟨⟨cls, known, owner, counts⟩, rfl⟩
    obtain ⟨attr, found⟩ := Option.isSome_iff_exists.mp counts
    have own : attr.name = location.attr := by simpa using List.find?_some found
    refine ⟨.ofAttribute cls attr, ?_, ?_⟩
    · rw [Location.key, known, Option.bind_some, found, Option.map_some]
    · rw [TypeSlot.ofAttribute, named _ cls known, own, owner]

/-- The slots without any type are those of the attributes with an empty closure. -/
theorem Divides.mem_untyped_iff (anchored : ∀ link ∈ references.choiceLinks, link.IsAnchored classes)
    (uniform : space.conflictingRoot? = none) {location : Location} :
    location ∈ (space.members.filter fun member =>
        ((space.choiceGraph references).typesOf member.2).isEmpty).map (·.1.location) ↔
      location.IsOf classes ∧ ∀ name, ¬references.Closure classes location.key name := by
  have closure : ∀ key root, space.rootOf? key.1 key.2 = some root →
      (((space.choiceGraph references).typesOf root).isEmpty = true ↔
        ∀ name, ¬references.Closure classes key name) := by
    intro key root located
    rw [NameSet.isEmpty_iff]
    exact forall_congr' fun name => not_congr (divides.mem_typesOf_iff anchored uniform located)
  simp only [List.mem_map, List.mem_filter, Prod.exists]
  constructor
  · rintro ⟨slot, root, ⟨present, empty⟩, same⟩
    obtain ⟨key, entered, located⟩ := mem_members_iff.mp present
    obtain ⟨owned, rfl⟩ := (divides.location_iff named).mp ⟨slot, entered, same⟩
    exact ⟨owned, (closure _ root located).mp empty⟩
  · rintro ⟨owned, empty⟩
    obtain ⟨slot, entered, same⟩ := (divides.location_iff named).mpr ⟨owned, rfl⟩
    obtain ⟨cls, attr, counts, _⟩ := divides.of_slot entered
    have isSlot := (divides.located location.key).trans (Option.isSome_iff_exists.mpr ⟨attr, counts⟩)
    obtain ⟨root, located⟩ := Option.isSome_iff_exists.mp isSlot
    exact ⟨slot, root, ⟨mem_members_iff.mpr ⟨_, entered, located⟩, (closure _ root located).mpr empty⟩, same⟩

end Locating

end TypeSpace

/-- What an analysis lists when types are missing: just the attributes with an empty closure, of which there
are some. Where a type is declared for one of them, it or an attribute that equals it has a choice of type. -/
theorem analyze_typeNotDefined {input : ModelInput} {options : AnalysisOptions} {locations : List Location}
    (failed : analyze input options = .error (.typeNotDefined locations)) :
    ∃ merged classes references, Merged.ofInput input options = .ok merged ∧
      navigateClasses merged.relationships merged.classes = .ok classes ∧
      References.ofClasses merged.relationships classes = .ok references ∧
      locations ≠ [] ∧
      (∀ location, location ∈ locations ↔
        location.IsOf classes ∧ ∀ name, ¬references.Closure classes location.key name) ∧
      ∀ location ∈ locations,
        ((∃ scalar, references.DeclaresScalar classes location.key scalar) ∨
          ∃ members, references.DeclaresUnion classes location.key members ∧ members.isEmpty = false) →
        references.HasChoices location.key := by
  obtain ⟨merged, classes, references, merging, navigating, matched, failed⟩ :=
    (Analysis.part_eq_typing_iff (map_eq_error_iff.mp failed)).mp rfl
  have sound := (Merged.wellFormed merging).navigate navigating
  rcases bind_eq_error_iff.mp failed with failed | ⟨_, _, failed⟩
  · have divides := TypeSpace.ofReferences_divides sound matched
    obtain ⟨uniform, some, rfl⟩ := TypeAssignment.of_typeNotDefined rfl failed
    have anchored : ∀ link ∈ references.choiceLinks, link.IsAnchored classes :=
      fun link listed => References.links_anchored sound matched (.inr listed)
    refine ⟨merged, classes, references, merging, navigating, matched, some, ?_, ?_⟩
    · exact fun location => divides.mem_untyped_iff sound.className anchored uniform
    · intro location listed
      obtain ⟨_, empty⟩ := (divides.mem_untyped_iff sound.className anchored uniform).mp listed
      exact References.hasChoices_of_declared empty
  · cases failed

namespace Sample

/-- Parcels wait at depots; nothing says of which type the code of a depot is. -/
def waitingParcels : ModelInput :=
  { subsystems := [
      { name := "Delivery"
        classes := [
          { name := "Parcel"
            attributes := [
              { name := "Place"
                union := some ["Depot Code", "Shop Code"]
                unionRelationships := [⟨"R1"⟩] }] },
          { name := "Depot", attributes := [{ name := "Code", identifiers := [.first] }] }]
        relationships := [
          ⟨⟨"R1"⟩, .association ⟨"Parcel", "waits at", .many, false⟩ ⟨"Depot", "keeps", .one, false⟩
            none⟩] }] }

/-- A parcel follows another one and may have the place of that one. -/
def chainedParcels : ModelInput :=
  { subsystems := [
      { name := "Delivery"
        classes := [
          { name := "Parcel"
            attributes := [
              { name := "Place"
                union := some ["Depot Code", "Shop Code"]
                identifiers := [.first]
                unionRelationships := [⟨"R1"⟩] }] }]
        relationships := [
          ⟨⟨"R1"⟩, .association ⟨"Parcel", "follows", .many, false⟩ ⟨"Parcel", "leads", .one, false⟩
            none⟩] }] }

end Sample

/-- The place of a parcel is listed with the code of the depot that it takes its type from. -/
theorem analyze_typeNotDefined_waitingParcels :
    let locations : List Location := [⟨"Parcel", "Place", "Delivery"⟩, ⟨"Depot", "Code", "Delivery"⟩]
    analyze Sample.waitingParcels = .error (.typeNotDefined locations) ∧
    ∃ merged classes references, Merged.ofInput Sample.waitingParcels {} = .ok merged ∧
      navigateClasses merged.relationships merged.classes = .ok classes ∧
      References.ofClasses merged.relationships classes = .ok references ∧
      locations ≠ [] ∧
      (∀ location, location ∈ locations ↔
        location.IsOf classes ∧ ∀ name, ¬references.Closure classes location.key name) ∧
      ∀ location ∈ locations,
        ((∃ scalar, references.DeclaresScalar classes location.key scalar) ∨
          ∃ members, references.DeclaresUnion classes location.key members ∧ members.isEmpty = false) →
        references.HasChoices location.key := by
  have failed : analyze Sample.waitingParcels = .error
      (.typeNotDefined [⟨"Parcel", "Place", "Delivery"⟩, ⟨"Depot", "Code", "Delivery"⟩]) :=
    failure?_eq_some_iff.mp (by decide +kernel)
  exact ⟨failed, analyze_typeNotDefined failed⟩

/-- The only attribute of the model declares the members of its type, and its type is told to be missing. -/
theorem declared_type_missed_chainedParcels : ∃ merged classes references,
    Merged.ofInput Sample.chainedParcels {} = .ok merged ∧
    navigateClasses merged.relationships merged.classes = .ok classes ∧
    References.ofClasses merged.relationships classes = .ok references ∧
    analyze Sample.chainedParcels = .error (.typeNotDefined [⟨"Parcel", "Place", "Delivery"⟩]) ∧
    ∃ members, references.DeclaresUnion classes ("Parcel", "Place") members ∧ members.isEmpty = false := by
  have failed : analyze Sample.chainedParcels = .error (.typeNotDefined [⟨"Parcel", "Place", "Delivery"⟩]) :=
    failure?_eq_some_iff.mp (by decide +kernel)
  obtain ⟨merged, classes, references, merging, navigating, matched, _⟩ :=
    (Analysis.part_eq_typing_iff (map_eq_error_iff.mp failed)).mp rfl
  have declared : ((Merged.ofInput Sample.chainedParcels {}).toOption.bind fun merged =>
      (navigateClasses merged.relationships merged.classes).toOption.bind fun classes =>
      (slotAttribute? classes ("Parcel", "Place")).map (·.union)) = some (some ["Depot Code", "Shop Code"]) := by
    decide +kernel
  rw [merging, Except.toOption, Option.bind_some, navigating, Except.toOption, Option.bind_some,
    Option.map_eq_some_iff] at declared
  obtain ⟨attr, counts, union⟩ := declared
  exact ⟨merged, classes, references, merging, navigating, matched, failed, _,
    ⟨("Parcel", "Place"), attr, .refl _, counts, congrArg (Option.map NameSet.ofList) union⟩, rfl⟩

end ClassModel
