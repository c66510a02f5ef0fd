import ClassModel.Proofs.DeclaredTypes
import ClassModel.Proofs.StateTables

/-! # Look-ups

A look-up finds the first record of a name. Classes and relationships stand in tables under their own
names, and the states of a state model have names of their own, so that each of these is found. The
attributes of a class and the state models of a run may share a name; then the first one is found for
all of them, and it has the type of all of them.
-/

namespace ClassModel

/-- The first item of a list that goes by its name. -/
def IsFirst {α : Type} (view : α → Name) (items : List α) (item : α) : Prop :=
  ∃ before after, items = before ++ item :: after ∧ ∀ other ∈ before, view other ≠ view item

/-- A search by name finds the first item of the name. -/
theorem find?_eq_some_iff_isFirst {α : Type} {view : α → Name} {items : List α} {name : Name} {item : α} :
    items.find? (fun other => decide (view other = name)) = some item ↔
      view item = name ∧ IsFirst view items item := by
  rw [List.find?_eq_some_iff_append, decide_eq_true_iff]
  refine and_congr_right ?_
  rintro rfl
  simp [IsFirst]

theorem Resolved.Class.attribute?_eq_some_iff {cls : Class} {name : Name} {attr : Attribute} :
    cls.attribute? name = some attr ↔ attr.name = name ∧ IsFirst (·.name) cls.allAttributes attr :=
  find?_eq_some_iff_isFirst

theorem Model.stateModel?_eq_some_iff {model : Model} {name : Name} {machine : Resolved.StateModel} :
    model.stateModel? name = some machine ↔ machine.name = name ∧ IsFirst (·.name) model.stateModels machine :=
  find?_eq_some_iff_isFirst

/-- The states of a complete form are found under their own names. -/
theorem Declaration.StateModel.state?_of_normalize {model : StateModel} {normal : Resolved.StateModel}
    (success : model.normalize = .ok normal) {state : Resolved.State} (listed : state ∈ normal.states) :
    normal.state? state.name = some state := by
  obtain ⟨wellFormed, rfl⟩ := normalize_eq_ok_iff.mp success
  have names : (model.completeForm.states.map (·.name)).Nodup := by
    rw [completeForm, List.map_map]
    exact wellFormed.stateNames
  exact find?_eq_of_nodup_map names listed rfl

/-- The state models of an analysis are complete forms. -/
theorem Analysis.exists_normalize {input : ModelInput} {options : AnalysisOptions} {analysis : Analysis}
    (ran : ofInput input options = .ok analysis) {machine : Resolved.StateModel}
    (listed : machine ∈ analysis.stateModels) : ∃ model ∈ input.stateModels, model.normalize = .ok machine := by
  obtain ⟨_, _, _, _, _, _, resolved⟩ := ofInput_eq_ok_iff.mp ran
  obtain ⟨model, declared, success⟩ := exists_left_of_forall₂ (mapM_eq_ok_iff.mp resolved) listed
  unfold Declaration.StateModel.resolve at success
  split at success
  · cases success
  · exact ⟨model, declared, success⟩

/-- All attributes of a class that go by one name get one type. -/
theorem Analysis.exists_type {input : ModelInput} {options : AnalysisOptions} {analysis : Analysis}
    (ran : ofInput input options = .ok analysis) {className : Name} {cls : Resolved.Class}
    (known : analysis.model.classes.get? className = some cls) {attr : Resolved.Attribute}
    (owned : attr ∈ cls.allAttributes) :
    ∃ type, ∀ other ∈ cls.allAttributes, other.name = attr.name → other.type = some type := by
  obtain ⟨merging, navigating, matched, _, typed, _⟩ := ofInput_eq_ok_iff.mp ran
  have sound := (Merged.wellFormed merging).navigate navigating
  have fits := (Typing.settles sound matched typed).fits
  obtain ⟨original, found, rfl⟩ := get?_classes_model.mp known
  obtain rfl := sound.className _ _ found
  obtain ⟨record, listed, rfl⟩ := Typing.mem_allAttributes_annotate_iff.mp owned
  have slot : (slotAttribute? analysis.classes (original.name, record.name)).isSome = true := by
    rw [slotAttribute?, found, Option.bind_some]
    exact Resolved.Class.isSome_attribute?_iff.mpr ⟨record, listed, rfl⟩
  obtain ⟨closed, scalar, _, _, _, resolved⟩ := fits _ slot
  refine ⟨.ofSet closed, fun other alsoOwned same => ?_⟩
  obtain ⟨another, _, rfl⟩ := Typing.mem_allAttributes_annotate_iff.mp alsoOwned
  dsimp only at same resolved ⊢
  rw [same, resolved]
  rfl

namespace Model

/-- In a model every class and every relationship is found under its own name, and so is every state
in its state model. Under the name of an attribute of a class its first attribute of that name is
found, so that an attribute is found exactly if it is the first of its name, and the type found is the
one that every attribute of the name has got. Under the name of a state model the first one of that name is
found. -/
theorem records_found {input : ModelInput} {options : AnalysisOptions} {model : Model}
    (success : analyze input options = .ok model) :
    (∀ cls ∈ model.classes.values, model.class? cls.name = some cls ∧ ∀ attr ∈ cls.allAttributes,
      (∃ first, cls.attribute? attr.name = some first ∧ first.name = attr.name ∧
        IsFirst (·.name) cls.allAttributes first) ∧
      (cls.attribute? attr.name = some attr ↔ IsFirst (·.name) cls.allAttributes attr) ∧
      model.attributeType? cls.name attr.name = attr.type ∧ attr.type.isSome = true) ∧
    (∀ relationship ∈ model.relationships.values,
      model.relationship? relationship.rnum = some relationship) ∧
    ∀ machine ∈ model.stateModels,
      (∃ first, model.stateModel? machine.name = some first ∧ first.name = machine.name ∧
        IsFirst (·.name) model.stateModels first) ∧
      (model.stateModel? machine.name = some machine ↔ IsFirst (·.name) model.stateModels machine) ∧
      ∀ state ∈ machine.states, machine.state? state.name = some state := by
  obtain ⟨analysis, ran, rfl⟩ := analyze_eq_ok_iff.mp success
  obtain ⟨merging, navigating, _⟩ := Analysis.ofInput_eq_ok_iff.mp ran
  have sound := (Merged.wellFormed merging).navigate navigating
  refine ⟨fun cls listed => ?_, fun relationship listed => ?_, fun machine listed => ?_⟩
  · obtain ⟨className, known⟩ := Table.mem_values_iff.mp listed
    have named : className = cls.name := by
      obtain ⟨original, found, rfl⟩ := Analysis.get?_classes_model.mp known
      exact (sound.className _ _ found).symm
    subst named
    refine ⟨known, fun attr owned => ?_⟩
    obtain ⟨first, declaring⟩ := Option.isSome_iff_exists.mp
      (Resolved.Class.isSome_attribute?_iff.mpr ⟨attr, owned, rfl⟩)
    have isFirst := Resolved.Class.attribute?_eq_some_iff.mp declaring
    obtain ⟨type, typed⟩ := Analysis.exists_type ran known owned
    have own := typed attr owned rfl
    refine ⟨⟨first, declaring, isFirst⟩, ?_, ?_, Option.isSome_of_eq_some own⟩
    · rw [Resolved.Class.attribute?_eq_some_iff, and_iff_right rfl]
    · rw [attributeType?, class?, known, Option.bind_some, declaring, Option.bind_some, own]
      exact typed first (List.mem_of_find?_eq_some declaring) isFirst.1
  · obtain ⟨rnum, known⟩ := Table.mem_values_iff.mp listed
    rw [relationship?, sound.rnum _ _ known, known]
  · have present : (analysis.model.stateModel? machine.name).isSome = true :=
      List.find?_isSome.mpr ⟨machine, listed, decide_eq_true rfl⟩
    obtain ⟨first, found⟩ := Option.isSome_iff_exists.mp present
    refine ⟨⟨first, found, stateModel?_eq_some_iff.mp found⟩, ?_, fun state held => ?_⟩
    · rw [stateModel?_eq_some_iff, and_iff_right rfl]
    · obtain ⟨_, _, normal⟩ := Analysis.exists_normalize ran listed
      exact Declaration.StateModel.state?_of_normalize normal held

end Model

namespace Sample

/-- A lift with a floor, and state models of it in two domains. -/
def building (ignored : List Declaration.Attribute) (domains : List Name) : ModelInput :=
  { subsystems := [
      { name := "Building"
        classes := [
          { name := "Lift"
            attributes := [{ name := "Floor", scalar := some "Number" }]
            ignoredAttributes := ignored }] }]
    stateModels := domains.map fun domain =>
      { domain, owner := .lifecycle "Lift", states := [{ name := "Resting", kind := .normal }] } }

/-- A building with shafts that its lifts run in, where a lift has a second floor, which is ignored, and a
second lifecycle. -/
def tower : ModelInput :=
  { building [] ["Building", "Service"] with
    subsystems := [
      { name := "Building"
        classes := [
          { name := "Lift"
            attributes := [
              { name := "Floor", scalar := some "Number" }, { name := "Shaft", relationships := [⟨"R1"⟩] }]
            ignoredAttributes := [{ name := "Floor" }] },
          { name := "Shaft"
            attributes := [{ name := "Letter", scalar := some "Text", identifiers := [.first] }] }]
        relationships := [
          ⟨⟨"R1"⟩, .association ⟨"Lift", "runs in", .one, true⟩ ⟨"Shaft", "takes", .one, false⟩ none⟩] }] }

end Sample

namespace Model

/-- Under their common name the first floor of a lift is found and not the ignored one, and the first
lifecycle and not the second; all the rest is found. -/
theorem records_found_tower : ∃ model cls attr ignored relationship machine second state,
    analyze Sample.tower = .ok model ∧ cls ∈ model.classes.values ∧
    attr ∈ cls.allAttributes ∧ ignored ∈ cls.allAttributes ∧ ignored.name = attr.name ∧
    relationship ∈ model.relationships.values ∧
    machine ∈ model.stateModels ∧ second ∈ model.stateModels ∧ second.name = machine.name ∧
    state ∈ second.states ∧
    model.class? cls.name = some cls ∧
    cls.attribute? attr.name = some attr ∧ cls.attribute? ignored.name ≠ some ignored ∧
    model.attributeType? cls.name ignored.name = ignored.type ∧ ignored.type = some (.scalar "Number") ∧
    model.relationship? relationship.rnum = some relationship ∧
    model.stateModel? machine.name = some machine ∧ model.stateModel? second.name ≠ some second ∧
    second.state? state.name = some state := by
  have ran : ((analyze Sample.tower).toOption.bind fun model =>
      model.classes.values.head?.bind fun cls =>
      cls.allAttributes.head?.bind fun attr => cls.allAttributes.getLast?.bind fun ignored =>
      model.relationships.values.head?.bind fun relationship =>
      model.stateModels.head?.bind fun machine => model.stateModels.getLast?.bind fun second =>
      second.states.head?.map fun state =>
        (decide (ignored.name = attr.name ∧ attr ≠ ignored ∧ second.name = machine.name ∧ machine ≠ second),
          ignored.type)) = some (true, some (.scalar "Number")) := by
    decide +kernel
  simp only [Option.bind_eq_some_iff, Option.map_eq_some_iff, toOption_eq_some_iff, Prod.mk.injEq,
    decide_eq_true_eq] at ran
  obtain ⟨model, success, cls, first, attr, foremost, ignored, last, relationship, related, machine, leading,
    second, final, state, held, ⟨named, apart, alsoNamed, alsoApart⟩, type⟩ := ran
  have classListed := List.mem_of_mem_head? first
  have ignoredListed := List.mem_of_mem_getLast? last
  have secondListed := List.mem_of_mem_getLast? final
  have stateListed := List.mem_of_mem_head? held
  have relationshipListed := List.mem_of_mem_head? related
  obtain ⟨attrs, attributes⟩ := List.head?_eq_some_iff.mp foremost
  obtain ⟨machines, models⟩ := List.head?_eq_some_iff.mp leading
  have attrListed : attr ∈ cls.allAttributes := attributes ▸ List.mem_cons_self
  have machineListed : machine ∈ model.stateModels := models ▸ List.mem_cons_self
  obtain ⟨classes, relationships, stateModels⟩ := records_found success
  obtain ⟨classFound, attributesFound⟩ := classes cls classListed
  have found : cls.attribute? attr.name = some attr :=
    (attributesFound attr attrListed).2.1.mpr ⟨[], attrs, attributes, by simp⟩
  have alsoFound : model.stateModel? machine.name = some machine :=
    (stateModels machine machineListed).2.1.mpr ⟨[], machines, models, by simp⟩
  refine ⟨model, cls, attr, ignored, relationship, machine, second, state, success, classListed, attrListed,
    ignoredListed, named, relationshipListed, machineListed, secondListed, alsoNamed, stateListed, classFound,
    found, ?_, (attributesFound ignored ignoredListed).2.2.1, type,
    relationships relationship relationshipListed, alsoFound, ?_,
    (stateModels second secondListed).2.2 state stateListed⟩
  · rw [named, found]
    exact fun same => apart (Option.some.inj same)
  · rw [alsoNamed, alsoFound]
    exact fun same => alsoApart (Option.some.inj same)

/-- An ignored attribute with the name of a regular one is not found, nor is a second lifecycle. -/
theorem records_hidden_building : ∃ model cls attr machine,
    analyze (Sample.building [{ name := "Floor" }] ["Building", "Service"]) = .ok model ∧
    cls ∈ model.classes.values ∧ attr ∈ cls.allAttributes ∧ cls.attribute? attr.name ≠ some attr ∧
    machine ∈ model.stateModels ∧ model.stateModel? machine.name ≠ some machine := by
  have ran : ((analyze (Sample.building [{ name := "Floor" }] ["Building", "Service"])).toOption.bind
      fun model => model.classes.values.head?.bind fun cls =>
      cls.allAttributes.getLast?.bind fun attr => model.stateModels.getLast?.map fun machine =>
        (decide (cls.attribute? attr.name = some attr),
          decide (model.stateModel? machine.name = some machine))) = some (false, false) := by
    decide +kernel
  simp only [Option.bind_eq_some_iff, Option.map_eq_some_iff, toOption_eq_some_iff, Prod.mk.injEq,
    decide_eq_false_iff_not] at ran
  obtain ⟨model, success, cls, first, attr, owned, machine, machined, hidden, alsoHidden⟩ := ran
  exact ⟨model, cls, attr, machine, success, List.mem_of_mem_head? first, List.mem_of_mem_getLast? owned,
    hidden, List.mem_of_mem_getLast? machined, alsoHidden⟩

end Model

end ClassModel
