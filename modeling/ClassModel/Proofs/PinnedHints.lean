import ClassModel.Proofs.Navigating
import Mathlib.Data.Set.Card

/-! # Which hints are pinned

A hint is pinned exactly if one end that its class sees fits it and no other does, and it is pinned to
that end. Where not all hints of a run are pinned, the error is about the first one that is not, in the
order of the classes, their attributes and the hints of these, and it tells whether no end fits or how
many do.
-/

namespace ClassModel

/-- Whether a class sees an end. The association class of an association sees both of its sides; without
one, the class on each side sees the other side; a subclass sees the superclass. Ordinal relationships
have no ends to see. -/
inductive Endpoint.IsSeenFrom (relationships : List Resolved.Relationship) (className : Name) :
    Endpoint → Prop where
  | associatedPassive {relationship : Resolved.Relationship} {passive active : Perspective}
      (listed : relationship ∈ relationships) (plain : relationship.isOrdinal = false)
      (shaped : relationship.shape = .association passive active (some className)) :
      IsSeenFrom relationships className
        ⟨relationship.rnum, passive.className, some passive.phrase, .passive⟩
  | associatedActive {relationship : Resolved.Relationship} {passive active : Perspective}
      (listed : relationship ∈ relationships) (plain : relationship.isOrdinal = false)
      (shaped : relationship.shape = .association passive active (some className)) :
      IsSeenFrom relationships className
        ⟨relationship.rnum, active.className, some active.phrase, .active⟩
  | oppositePassive {relationship : Resolved.Relationship} {passive active : Perspective}
      (listed : relationship ∈ relationships) (plain : relationship.isOrdinal = false)
      (shaped : relationship.shape = .association passive active none) (opposite : active.className = className) :
      IsSeenFrom relationships className
        ⟨relationship.rnum, passive.className, some passive.phrase, .passive⟩
  | oppositeActive {relationship : Resolved.Relationship} {passive active : Perspective}
      (listed : relationship ∈ relationships) (plain : relationship.isOrdinal = false)
      (shaped : relationship.shape = .association passive active none) (opposite : passive.className = className) :
      IsSeenFrom relationships className
        ⟨relationship.rnum, active.className, some active.phrase, .active⟩
  | superclass {relationship : Resolved.Relationship} {superclass : Name} {subclasses : List Name}
      (listed : relationship ∈ relationships) (plain : relationship.isOrdinal = false)
      (shaped : relationship.shape = .generalization superclass subclasses) (subclass : className ∈ subclasses) :
      IsSeenFrom relationships className ⟨relationship.rnum, superclass, none, .superclass⟩

/-- A class is offered the ends that it sees, and no others. -/
theorem Endpoint.mem_seenFrom_iff_isSeenFrom {relationships : List Resolved.Relationship} {className : Name}
    {endpoint : Endpoint} :
    endpoint ∈ seenFrom relationships className ↔ endpoint.IsSeenFrom relationships className := by
  rw [mem_seenFrom_iff]
  constructor
  · rintro ⟨relationship, listed, plain, offered⟩
    unfold Resolved.Relationship.endpoints at offered
    split at offered
    · rename_i passive active associationClass shaped
      simp only [List.mem_cons, Prod.mk.injEq, List.not_mem_nil, or_false] at offered
      cases associationClass with
      | some associationClass =>
        obtain ⟨rfl, rfl⟩ | ⟨rfl, rfl⟩ := offered
        · exact .associatedPassive listed plain shaped
        · exact .associatedActive listed plain shaped
      | none =>
        obtain ⟨rfl, rfl⟩ | ⟨rfl, rfl⟩ := offered
        · exact .oppositePassive listed plain shaped rfl
        · exact .oppositeActive listed plain shaped rfl
    · rename_i superclass subclasses shaped
      obtain ⟨subclass, present, same⟩ := List.mem_map.mp offered
      obtain ⟨rfl, rfl⟩ := Prod.mk.inj same
      exact .superclass listed plain shaped present
  · intro seen
    cases seen with
    | associatedPassive listed plain shaped =>
      exact ⟨_, listed, plain, by simp [Resolved.Relationship.endpoints, shaped]⟩
    | associatedActive listed plain shaped =>
      exact ⟨_, listed, plain, by simp [Resolved.Relationship.endpoints, shaped]⟩
    | oppositePassive listed plain shaped opposite =>
      exact ⟨_, listed, plain, by simp [Resolved.Relationship.endpoints, shaped, opposite]⟩
    | oppositeActive listed plain shaped opposite =>
      exact ⟨_, listed, plain, by simp [Resolved.Relationship.endpoints, shaped, opposite]⟩
    | superclass listed plain shaped subclass =>
      exact ⟨_, listed, plain, by simp [Resolved.Relationship.endpoints, shaped, subclass]⟩

namespace NavigationHint

/-- Whether an end is as a hint has it, in all that the hint says. -/
structure Fits (hint : NavigationHint) (endpoint : Endpoint) : Prop where
  rnum : ∀ rnum, hint.rnum = some rnum → endpoint.rnum = rnum
  target : ∀ target, hint.target = some target → endpoint.className = target
  phrase : ∀ phrase, hint.phrase = some phrase → endpoint.phrase = some phrase

theorem agrees_iff_fits {hint : NavigationHint} {endpoint : Endpoint} :
    hint.agrees endpoint = true ↔ hint.Fits endpoint := by
  simp only [agrees, Bool.and_eq_true, Option.all_eq_true, decide_eq_true_eq, and_assoc]
  constructor
  · rintro ⟨rnum, target, phrase⟩
    exact ⟨fun _ said => (rnum _ said).symm, fun _ said => (target _ said).symm,
      fun _ said => (phrase _ said).symm⟩
  · rintro ⟨rnum, target, phrase⟩
    exact ⟨fun _ said => (rnum _ said).symm, fun _ said => (target _ said).symm,
      fun _ said => (phrase _ said).symm⟩

/-- A hint that gives a phrase fits no superclass. -/
theorem Fits.side_ne_superclass {relationships : List Resolved.Relationship} {className : Name}
    {hint : NavigationHint} {endpoint : Endpoint} (fits : hint.Fits endpoint)
    (seen : endpoint.IsSeenFrom relationships className) (given : hint.phrase ≠ none) :
    endpoint.side ≠ .superclass := by
  obtain ⟨phrase, said⟩ := Option.ne_none_iff_exists'.mp given
  have named := fits.phrase phrase said
  cases seen with
  | superclass => cases named
  | _ => nofun

/-- The ends that a hint of a class can mean. -/
def meanings (relationships : List Resolved.Relationship) (className : Name) (hint : NavigationHint) :
    Set Endpoint :=
  {endpoint | endpoint.IsSeenFrom relationships className ∧ hint.Fits endpoint}

/-- Why a hint is not pinned: no end fits it, or as many as are counted do. -/
inductive IsUnclear (relationships : List Resolved.Relationship) (className : Name) (hint : NavigationHint) :
    NavigationFailure → Prop where
  | nothing (none : hint.meanings relationships className = ∅) :
      IsUnclear relationships className hint .noSolution
  | several {count : Nat} (counted : (hint.meanings relationships className).ncard = count) (many : 2 ≤ count) :
      IsUnclear relationships className hint (.multipleSolutions count)

section Pinning

variable {relationships : List Resolved.Relationship} {className : Name} {hint : NavigationHint}

theorem mem_filter_agrees_iff {endpoint : Endpoint} :
    endpoint ∈ (Endpoint.seenFrom relationships className).filter hint.agrees ↔
      endpoint ∈ hint.meanings relationships className := by
  rw [List.mem_filter, Endpoint.mem_seenFrom_iff_isSeenFrom, agrees_iff_fits]
  rfl

/-- The ends that agree with a hint are as many as it can mean. -/
theorem ncard_meanings (relationships : List Resolved.Relationship) (className : Name) (hint : NavigationHint) :
    (hint.meanings relationships className).ncard =
      ((Endpoint.seenFrom relationships className).filter hint.agrees).length := by
  have distinct := (Endpoint.nodup_seenFrom relationships className).filter hint.agrees
  rw [← List.toFinset_card_of_nodup distinct, ← Set.ncard_coe_finset]
  congr 1
  ext endpoint
  rw [Finset.mem_coe, List.mem_toFinset, mem_filter_agrees_iff]

/-- A hint is pinned to the one end that it can mean. -/
theorem pin_seenFrom_eq_ok_iff {navigation : Navigation} :
    hint.pin (Endpoint.seenFrom relationships className) = .ok navigation ↔
      hint.meanings relationships className = {navigation.endpoint} ∧ navigation.rename = hint.rename := by
  have distinct := (Endpoint.nodup_seenFrom relationships className).filter hint.agrees
  rw [pin_eq_ok_iff, eq_singleton_iff_of_nodup distinct]
  simp only [mem_filter_agrees_iff, Set.ext_iff, Set.mem_singleton_iff]

/-- A hint is pinned if there is one end that it can mean and no other. -/
theorem exists_pin_seenFrom_iff :
    (∃ navigation, hint.pin (Endpoint.seenFrom relationships className) = .ok navigation) ↔
      ∃! endpoint, endpoint ∈ hint.meanings relationships className := by
  rw [← Set.singleton_iff_unique_mem]
  constructor
  · rintro ⟨navigation, pinned⟩
    exact ⟨_, (pin_seenFrom_eq_ok_iff.mp pinned).1⟩
  · rintro ⟨endpoint, only⟩
    exact ⟨⟨endpoint, hint.rename⟩, pin_seenFrom_eq_ok_iff.mpr ⟨only, rfl⟩⟩

/-- A hint that is not pinned is unclear. -/
theorem isUnclear_of_pin {kind : NavigationFailure}
    (failed : hint.pin (Endpoint.seenFrom relationships className) = .error kind) :
    hint.IsUnclear relationships className kind := by
  have counted := ncard_meanings relationships className hint
  unfold pin at failed
  split at failed
  · rename_i none
    cases failed
    refine .nothing (Set.eq_empty_iff_forall_notMem.mpr fun endpoint meant => ?_)
    rw [← mem_filter_agrees_iff, none] at meant
    cases meant
  · cases failed
  · rename_i notNone notOne
    cases failed
    refine .several counted ?_
    generalize (Endpoint.seenFrom relationships className).filter hint.agrees = several at notNone notOne ⊢
    match several with
    | [] => exact absurd rfl notNone
    | [endpoint] => exact absurd rfl (notOne endpoint)
    | _ :: _ :: _ => simp

end Pinning

end NavigationHint

namespace Resolved

/-- What navigating makes of an attribute: each hint, in order, gives the one end that it can mean, with
the rename of the hint, and all else stays. -/
structure Attribute.IsNavigated (relationships : List Relationship) (className : Name)
    (attr navigated : Attribute) : Prop where
  navigations : List.Forall₂ (fun hint navigation =>
    hint.meanings relationships className = {navigation.endpoint} ∧ navigation.rename = hint.rename)
    attr.hints navigated.navigations
  rest : navigated = { attr with navigations := navigated.navigations, hints := [] }

/-- What navigating makes of a class: its attributes are navigated, and all else stays. -/
structure Class.IsNavigated (relationships : List Relationship) (cls navigated : Class) : Prop where
  attributes : List.Forall₂ (Attribute.IsNavigated relationships cls.name) cls.attributes navigated.attributes
  ignoredAttributes : List.Forall₂ (Attribute.IsNavigated relationships cls.name)
    cls.ignoredAttributes navigated.ignoredAttributes
  rest : navigated =
    { cls with attributes := navigated.attributes, ignoredAttributes := navigated.ignoredAttributes }

variable {relationships : List Relationship} {className : Name}

theorem Attribute.navigate_seenFrom_eq_ok_iff {attr navigated : Attribute} (fresh : attr.navigations = []) :
    attr.navigate className (Endpoint.seenFrom relationships className) = .ok navigated ↔
      attr.IsNavigated relationships className navigated := by
  rw [navigate_eq_ok_iff, fresh]
  simp only [List.nil_append, NavigationHint.pin_seenFrom_eq_ok_iff]
  constructor
  · rintro ⟨navigations, pins, rfl⟩
    exact ⟨pins, rfl⟩
  · rintro ⟨pins, rest⟩
    exact ⟨navigated.navigations, pins, rest.symm⟩

theorem Class.navigate_seenFrom_eq_ok_iff {cls navigated : Class}
    (fresh : ∀ attr ∈ cls.allAttributes, attr.navigations = []) :
    cls.navigate (Endpoint.seenFrom relationships cls.name) = .ok navigated ↔
      cls.IsNavigated relationships navigated := by
  have each : ∀ attrs ⊆ cls.allAttributes, ∀ results,
      List.Forall₂ (fun attr result => attr.navigate cls.name (Endpoint.seenFrom relationships cls.name) =
        .ok result) attrs results ↔
      List.Forall₂ (Attribute.IsNavigated relationships cls.name) attrs results := by
    intro attrs owned results
    exact forall₂_congr_of_mem fun attr listed _ =>
      Attribute.navigate_seenFrom_eq_ok_iff (fresh attr (owned listed))
  rw [navigate_eq_ok_iff]
  simp only [each _ (List.subset_append_left ..), each _ (List.subset_append_right ..)]
  constructor
  · rintro ⟨attributes, ignoredAttributes, regular, others, rfl⟩
    exact ⟨regular, others, rfl⟩
  · rintro ⟨regular, others, rest⟩
    exact ⟨_, _, regular, others, rest.symm⟩

theorem Attribute.failure?_navigate (className : Name) (endpoints : List Endpoint) (attr : Attribute) :
    failure? (attr.navigate className endpoints) = attr.hints.findSome? fun hint =>
      (failure? (hint.pin endpoints)).map (.badNavigation className attr.name hint) := by
  have ends : ∀ navigations : List Navigation, failure? (Except.ok
      { attr with navigations := attr.navigations ++ navigations, hints := [] } :
        Except AnalysisError Attribute) = none := fun _ => rfl
  rw [navigate, failure?_bind ends, Option.or_none, failure?_mapM]
  refine findSome?_congr fun hint _ => ?_
  cases hint.pin endpoints <;> rfl

/-- A class is navigated attribute by attribute, the regular ones first. -/
theorem Class.failure?_navigate (endpoints : List Endpoint) (cls : Class) :
    failure? (cls.navigate endpoints) = cls.allAttributes.findSome? fun attr =>
      failure? (attr.navigate cls.name endpoints) := by
  have ends : ∀ attributes ignoredAttributes : List Attribute, failure? (Except.ok
      { cls with attributes, ignoredAttributes } : Except AnalysisError Class) = none := fun _ _ => rfl
  have ignored : ∀ attributes, failure? (do
      let ignoredAttributes ← cls.ignoredAttributes.mapM (Attribute.navigate cls.name endpoints)
      .ok { cls with attributes, ignoredAttributes }) =
      failure? (cls.ignoredAttributes.mapM (Attribute.navigate cls.name endpoints)) := by
    intro attributes
    rw [failure?_bind (ends attributes), Option.or_none]
  rw [navigate, failure?_bind ignored, failure?_mapM, failure?_mapM, allAttributes, List.findSome?_append]

end Resolved

/-- A hint with the attribute that gives it and the class of this one. -/
structure HintPlace where
  cls : Resolved.Class
  attr : Resolved.Attribute
  hint : NavigationHint

namespace HintPlace

/-- All hints of some classes, in the order of the classes, their attributes and the hints of these. -/
def ofClasses (classes : List Resolved.Class) : List HintPlace :=
  classes.flatMap fun cls => cls.allAttributes.flatMap fun attr => attr.hints.map fun hint => ⟨cls, attr, hint⟩

theorem mem_ofClasses_iff {classes : List Resolved.Class} {place : HintPlace} :
    place ∈ ofClasses classes ↔
      place.cls ∈ classes ∧ place.attr ∈ place.cls.allAttributes ∧ place.hint ∈ place.attr.hints := by
  obtain ⟨cls, attr, hint⟩ := place
  simp only [ofClasses, List.mem_flatMap, List.mem_map, mk.injEq]
  constructor
  · rintro ⟨_, listed, _, owned, _, given, rfl, rfl, rfl⟩
    exact ⟨listed, owned, given⟩
  · rintro ⟨listed, owned, given⟩
    exact ⟨_, listed, _, owned, _, given, rfl, rfl, rfl⟩

/-- The ends that the hint can mean. -/
def meanings (relationships : List Resolved.Relationship) (place : HintPlace) : Set Endpoint :=
  place.hint.meanings relationships place.cls.name

/-- The error about the hint, if it is not pinned. -/
def fault? (relationships : List Resolved.Relationship) (place : HintPlace) : Option AnalysisError :=
  (failure? (place.hint.pin (Endpoint.seenFrom relationships place.cls.name))).map
    (.badNavigation place.cls.name place.attr.name place.hint)

variable {relationships : List Resolved.Relationship} {place : HintPlace}

theorem fault?_eq_none_iff :
    place.fault? relationships = none ↔ ∃! endpoint, endpoint ∈ place.meanings relationships := by
  rw [fault?, Option.map_eq_none_iff, failure?_eq_none_iff]
  exact NavigationHint.exists_pin_seenFrom_iff

theorem isUnclear_of_fault? {failure : AnalysisError} (fault : place.fault? relationships = some failure) :
    ∃ kind, place.hint.IsUnclear relationships place.cls.name kind ∧
      failure = .badNavigation place.cls.name place.attr.name place.hint kind := by
  obtain ⟨kind, failed, rfl⟩ := Option.map_eq_some_iff.mp fault
  exact ⟨kind, NavigationHint.isUnclear_of_pin (failure?_eq_some_iff.mp failed), rfl⟩

end HintPlace

/-- Navigating all classes fails as the first hint does that is not pinned. -/
theorem failure?_navigateClasses (relationships : Table Rnum Resolved.Relationship)
    {classes : Table Name Resolved.Class}
    (named : ∀ name cls, classes.get? name = some cls → cls.name = name) :
    failure? (navigateClasses relationships classes) =
      (HintPlace.ofClasses classes.values).findSome? (HintPlace.fault? relationships.values) := by
  rw [navigateClasses, Table.failure?_mapValuesM, HintPlace.ofClasses, findSome?_flatMap]
  change _ = (classes.entries.map (·.2)).findSome? _
  rw [List.findSome?_map]
  refine findSome?_congr fun entry listed => ?_
  have same : entry.2.name = entry.1 := named _ _ (Table.get?_eq_some_iff.mpr listed)
  rw [← same, Resolved.Class.failure?_navigate, Function.comp_apply, findSome?_flatMap]
  refine findSome?_congr fun attr _ => ?_
  rw [Resolved.Attribute.failure?_navigate, List.findSome?_map]
  rfl

namespace Merged

variable {input : ModelInput} {options : AnalysisOptions} {merged : Merged}

/-- Attributes are merged without navigations. -/
theorem navigations_eq_nil (merging : ofInput input options = .ok merged) {name : Name} {cls : Resolved.Class}
    (found : merged.classes.get? name = some cls) : ∀ attr ∈ cls.allAttributes, attr.navigations = [] := by
  obtain ⟨owners, _, _, _, entered, _⟩ := ofInput_eq_ok_iff.mp merging
  obtain ⟨declaration, _, _, number, rfl⟩ := classes_declared entered found
  intro attr owned
  obtain ⟨_, _, rfl⟩ | ⟨_, _, rfl⟩ := (List.mem_append.mp owned).imp List.mem_map.mp List.mem_map.mp <;> rfl

theorem navigateClasses_eq_ok_iff (merging : ofInput input options = .ok merged)
    {classes : Table Name Resolved.Class} :
    navigateClasses merged.relationships merged.classes = .ok classes ↔
      List.Forall₂ (fun entry result => result.1 = entry.1 ∧
        entry.2.IsNavigated merged.relationships.values result.2) merged.classes.entries classes.entries := by
  have each : ∀ entry ∈ merged.classes.entries, ∀ result : Name × Resolved.Class,
      entry.2.navigate (Endpoint.seenFrom merged.relationships.values entry.1) = .ok result.2 ↔
        entry.2.IsNavigated merged.relationships.values result.2 := by
    intro entry listed result
    have found := Table.get?_eq_some_iff.mpr listed
    rw [← (wellFormed merging).className _ _ found]
    exact Resolved.Class.navigate_seenFrom_eq_ok_iff (navigations_eq_nil merging found)
  rw [navigateClasses, Table.mapValuesM_eq_ok_iff, Table.mapEntries_eq_ok_iff]
  exact forall₂_congr_of_mem fun entry listed result => and_congr_right fun _ => each entry listed result

/-- The hints of a run are pinned exactly if each can mean one end and no other; then every attribute
navigates where its hints lead, and nothing else changes. Otherwise the error is about the first hint that
can mean no end or several. A hint that gives a phrase cannot mean a superclass. -/
theorem hints_pinned (merging : ofInput input options = .ok merged) :
    ((∃ classes, navigateClasses merged.relationships merged.classes = .ok classes) ↔
      ∀ place ∈ HintPlace.ofClasses merged.classes.values,
        ∃! endpoint, endpoint ∈ place.meanings merged.relationships.values) ∧
    (∀ classes, navigateClasses merged.relationships merged.classes = .ok classes ↔
      List.Forall₂ (fun entry result => result.1 = entry.1 ∧
        entry.2.IsNavigated merged.relationships.values result.2) merged.classes.entries classes.entries) ∧
    (∀ failure, navigateClasses merged.relationships merged.classes = .error failure →
      ∃ before place after kind, HintPlace.ofClasses merged.classes.values = before ++ place :: after ∧
        (∀ earlier ∈ before, ∃! endpoint, endpoint ∈ earlier.meanings merged.relationships.values) ∧
        place.hint.IsUnclear merged.relationships.values place.cls.name kind ∧
        failure = .badNavigation place.cls.name place.attr.name place.hint kind) ∧
    ∀ place : HintPlace, place.hint.phrase ≠ none →
      ∀ endpoint ∈ place.meanings merged.relationships.values, endpoint.side ≠ .superclass := by
  have search := failure?_navigateClasses merged.relationships (wellFormed merging).className
  refine ⟨?_, fun classes => navigateClasses_eq_ok_iff merging, fun failure failed => ?_,
    fun place given endpoint meant => meant.2.side_ne_superclass meant.1 given⟩
  · rw [← failure?_eq_none_iff, search, List.findSome?_eq_none_iff]
    simp only [HintPlace.fault?_eq_none_iff]
  · rw [← failure?_eq_some_iff, search] at failed
    obtain ⟨before, place, after, listed, fault, clear⟩ := List.findSome?_eq_some_iff.mp failed
    obtain ⟨kind, unclear, same⟩ := HintPlace.isUnclear_of_fault? fault
    exact ⟨before, place, after, kind, listed,
      fun earlier early => HintPlace.fault?_eq_none_iff.mp (clear earlier early), unclear, same⟩

end Merged

namespace Sample

/-- A lesson refers to two persons: its teacher is told by the phrase, its pupil by the class alone. -/
def lessons : ModelInput :=
  { subsystems := [
      { name := "School"
        classes := [
          { name := "Person", attributes := [{ name := "ID", scalar := some "Number", identifiers := [.first] }] },
          { name := "Lesson"
            attributes := [
              { name := "Teacher", hints := [{ phrase := some "teaches", rename := some "ID" }] },
              { name := "Pupil", hints := [{ target := some "Person" }] }] }]
        relationships := [
          ⟨⟨"R1"⟩, .association ⟨"Person", "teaches", .many, false⟩ ⟨"Person", "is taught by", .many, false⟩
            (some "Lesson")⟩] }] }

end Sample

/-- The hint of the pupil is the first that is not pinned, as it can mean both persons. -/
theorem Merged.hints_pinned_lessons : ∃ merged before place after,
    ofInput Sample.lessons {} = .ok merged ∧
    navigateClasses merged.relationships merged.classes =
      .error (.badNavigation "Lesson" "Pupil" { target := some "Person" } (.multipleSolutions 2)) ∧
    HintPlace.ofClasses merged.classes.values = before ++ place :: after ∧
    (∀ earlier ∈ before, ∃! endpoint, endpoint ∈ earlier.meanings merged.relationships.values) ∧
    place.attr.name = "Pupil" ∧ (place.meanings merged.relationships.values).ncard = 2 := by
  have ran : ((ofInput Sample.lessons {}).toOption.bind fun merged =>
      failure? (navigateClasses merged.relationships merged.classes)) =
      some (.badNavigation "Lesson" "Pupil" { target := some "Person" } (.multipleSolutions 2)) := by
    decide +kernel
  simp only [Option.bind_eq_some_iff, toOption_eq_some_iff, failure?_eq_some_iff] at ran
  obtain ⟨merged, merging, failed⟩ := ran
  obtain ⟨before, place, after, kind, listed, clear, unclear, same⟩ :=
    (hints_pinned merging).2.2.1 _ failed
  obtain ⟨_, attr, _, rfl⟩ := AnalysisError.badNavigation.inj same
  cases unclear with
  | several counted => exact ⟨merged, before, place, after, merging, failed, listed, clear, attr.symm, counted⟩

end ClassModel
