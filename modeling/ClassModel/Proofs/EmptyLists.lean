import ClassModel.Proofs.ClassTables
import ClassModel.Proofs.Revisions

/-! # Empty member lists

An empty member list says nothing of a type: an attribute that declares one has the types that it would have
without it. But it is compared with the other member lists among attributes that equal each other, and is
not the same as one with members. So an input can be analyzed without its empty lists, with the same result,
wherever it can be analyzed with them; the other way round no set of equals may have an empty list and
one with members.
-/

namespace ClassModel

/-! ## Inputs without some empty lists -/

namespace Declaration

/-- An attribute as it is, or without its member list if that is empty. -/
inductive Attribute.Drops : Attribute → Attribute → Prop
  | kept (attr : Attribute) : attr.Drops attr
  | dropped {attr : Attribute} (empty : attr.union = some []) : attr.Drops { attr with union := none }

/-- A class without the empty member lists of some of its attributes. -/
structure Class.Drops (cls other : Class) : Prop where
  attributes : List.Forall₂ Attribute.Drops cls.attributes other.attributes
  ignoredAttributes : List.Forall₂ Attribute.Drops cls.ignoredAttributes other.ignoredAttributes
  rest : { cls with attributes := other.attributes, ignoredAttributes := other.ignoredAttributes } = other

structure Subsystem.Drops (subsystem other : Subsystem) : Prop where
  classes : List.Forall₂ Class.Drops subsystem.classes other.classes
  rest : { subsystem with classes := other.classes } = other

end Declaration

/-- An input without the empty member lists of some of its attributes. -/
structure ModelInput.Drops (input other : ModelInput) : Prop where
  subsystems : List.Forall₂ Declaration.Subsystem.Drops input.subsystems other.subsystems
  rest : { input with subsystems := other.subsystems } = other

/-- The revision that leaves out all empty member lists. -/
def Revision.withoutEmptyLists : Revision :=
  ⟨fun _ _ renames => renames, fun union => union.filter (!·.isEmpty)⟩

namespace Declaration

theorem Attribute.Drops.name {attr other : Attribute} (drops : attr.Drops other) : other.name = attr.name := by
  cases drops <;> rfl

theorem Attribute.Drops.revise_eq {attr other : Attribute} (drops : attr.Drops other) (className : Name) :
    other.revise .withoutEmptyLists className = attr.revise .withoutEmptyLists className := by
  cases drops with
  | kept => rfl
  | dropped empty =>
    unfold Attribute.revise
    rw [empty]
    rfl

theorem Class.Drops.revise_eq {cls other : Class} (drops : cls.Drops other) :
    other.revise .withoutEmptyLists = cls.revise .withoutEmptyLists := by
  have alike : ∀ attr peer : Attribute, attr.Drops peer →
      peer.revise .withoutEmptyLists cls.name = attr.revise .withoutEmptyLists cls.name :=
    fun _ _ same => same.revise_eq cls.name
  rw [← drops.rest]
  unfold Class.revise
  dsimp only
  rw [map_eq_of_forall₂ drops.attributes alike, map_eq_of_forall₂ drops.ignoredAttributes alike]

end Declaration

/-- Inputs that differ in empty lists are the same without any. -/
theorem ModelInput.Drops.revise_eq {input other : ModelInput} (drops : input.Drops other) :
    other.revise .withoutEmptyLists = input.revise .withoutEmptyLists := by
  rw [← drops.rest]
  unfold ModelInput.revise
  dsimp only
  rw [map_eq_of_forall₂ drops.subsystems]
  intro subsystem peer same
  rw [← same.rest]
  dsimp only
  rw [map_eq_of_forall₂ same.classes fun _ _ same => same.revise_eq]

/-! ## The record that counts for an attribute -/

/-- The first record of an attribute, regular before ignored, in the first declaration of its class that
brings the class in. -/
def ModelInput.record? (input : ModelInput) (key : SlotKey) : Option Declaration.Attribute :=
  (input.entering.find? (·.2.name = key.1)).bind fun declaration =>
    (declaration.2.attributes ++ declaration.2.ignoredAttributes).find? (·.name = key.2)

namespace ModelInput.Drops

variable {input other : ModelInput} (drops : input.Drops other)

include drops

theorem classDeclarations : List.Forall₂
    (fun declaration peer => peer.1 = declaration.1 ∧ declaration.2.Drops peer.2)
    input.classDeclarations other.classDeclarations := by
  refine List.rel_flatMap drops.subsystems fun subsystem peer same => ?_
  rw [List.forall₂_map_left_iff, List.forall₂_map_right_iff]
  exact same.classes.imp fun cls changed alike => ⟨by rw [← same.rest], alike⟩

theorem declares_eq (className : Name) : other.declares className = input.declares className := by
  have owned : ∀ input : ModelInput,
      (input.revise .withoutEmptyLists).declares className = input.declares className := by
    intro input
    simp only [declares, Merged.ownDeclarations, classDeclarations_revise, List.filter_map, List.any_map]
    rfl
  rw [← owned other, drops.revise_eq, owned]

theorem entering : List.Forall₂ (fun declaration peer => declaration.2.Drops peer.2)
    input.entering other.entering := by
  refine (List.rel_filter ?_ drops.classDeclarations).imp fun _ _ same => same.2
  rintro declaration peer ⟨_, same⟩
  have named : peer.2.name = declaration.2.name := by rw [← same.rest]
  have imports : peer.2.isImport = declaration.2.isImport := by rw [← same.rest]; rfl
  simp only [bringsIn, isLate, named, imports, drops.declares_eq]

/-- The record that counts for an attribute may have lost its empty member list. -/
theorem record? (key : SlotKey) :
    Option.Rel Declaration.Attribute.Drops (input.record? key) (other.record? key) := by
  have classes : Option.Rel (fun declaration peer : Name × Declaration.Class => declaration.2.Drops peer.2)
      (input.entering.find? (·.2.name = key.1)) (other.entering.find? (·.2.name = key.1)) :=
    find?_rel_of_forall₂ drops.entering fun declaration peer same => by rw [← same.rest]
  refine rel_bind classes fun declaration peer same => ?_
  exact find?_rel_of_forall₂ (List.rel_append same.attributes same.ignoredAttributes)
    fun attr peer alike => by rw [alike.name]

end ModelInput.Drops

/-- The attribute that is typed restates the record that counts for it. -/
theorem ModelInput.restates_record? {input : ModelInput} {options : AnalysisOptions} {merged : Merged}
    (merging : Merged.ofInput input options = .ok merged) {classes : Table Name Resolved.Class}
    (navigating : navigateClasses merged.relationships merged.classes = .ok classes) (key : SlotKey) :
    Option.Rel Resolved.Attribute.Restates (slotAttribute? classes key) (input.record? key) := by
  refine rel_bind (Merged.restates_entering merging navigating key.1) fun cls declaration same => ?_
  exact find?_rel_of_forall₂ (List.rel_append same.attributes same.ignoredAttributes)
    fun attr declared alike => by rw [alike.name]

/-! ## When an analysis succeeds -/

/-- The classes and references that the types of an input are found from. -/
structure ModelInput.IsMatched (input : ModelInput) (options : AnalysisOptions) (merged : Merged)
    (classes : Table Name Resolved.Class) (references : References) : Prop where
  merging : Merged.ofInput input options = .ok merged
  navigating : navigateClasses merged.relationships merged.classes = .ok classes
  matched : References.ofClasses merged.relationships classes = .ok references

/-- An input has a model if it has references with which its declarations are consistent, and its ordinals and
state models are in order. -/
theorem exists_model_iff {input : ModelInput} {options : AnalysisOptions} :
    (∃ model, analyze input options = .ok model) ↔ ∃ merged classes references,
      input.IsMatched options merged classes references ∧ references.Consistent classes ∧
      (∃ ordinals, ordinalTable merged.relationships classes = .ok ordinals) ∧
      ∃ machines, input.stateModels.mapM
        (Declaration.StateModel.resolve merged.classes merged.relationships) = .ok machines := by
  constructor
  · rintro ⟨model, success⟩
    obtain ⟨analysis, ran, _⟩ := analyze_eq_ok_iff.mp success
    obtain ⟨merging, navigating, matched, ranked, typed, tabled, modelled⟩ := Analysis.ofInput_eq_ok_iff.mp ran
    have sound := (Merged.wellFormed merging).navigate navigating
    exact ⟨_, _, _, ⟨merging, navigating, matched⟩,
      (Typing.exists_typeTable_iff sound matched).mp ⟨_, _, typed, tabled⟩, ⟨_, ranked⟩, _, modelled⟩
  · rintro ⟨merged, classes, references, ⟨merging, navigating, matched⟩, consistent, ⟨ordinals, ranked⟩,
      stateModels, modelled⟩
    have sound := (Merged.wellFormed merging).navigate navigating
    obtain ⟨typing, types, typed, tabled⟩ := (Typing.exists_typeTable_iff sound matched).mpr consistent
    let analysis : Analysis := { merged, classes, references, ordinals, typing, types, stateModels }
    exact ⟨analysis.model, analyze_eq_ok_iff.mpr ⟨analysis, Analysis.ofInput_eq_ok_iff.mpr
      ⟨merging, navigating, matched, ranked, typed, tabled, modelled⟩, rfl⟩⟩

theorem ModelInput.IsMatched.unique {input : ModelInput} {options : AnalysisOptions} {merged others : Merged}
    {classes peers : Table Name Resolved.Class} {references links : References}
    (left : input.IsMatched options merged classes references)
    (right : input.IsMatched options others peers links) :
    merged = others ∧ classes = peers ∧ references = links := by
  obtain rfl := Except.ok.inj (left.merging.symm.trans right.merging)
  obtain rfl := Except.ok.inj (left.navigating.symm.trans right.navigating)
  exact ⟨rfl, rfl, Except.ok.inj (left.matched.symm.trans right.matched)⟩

/-- Revised member lists leave the references as they are. -/
theorem ModelInput.isMatched_revise_iff {revision : Revision}
    (keeps : ∀ className attr renames, revision.renames className attr renames = renames) {input : ModelInput}
    {options : AnalysisOptions} {others : Merged} {peers : Table Name Resolved.Class}
    {references : References} :
    (input.revise revision).IsMatched options others peers references ↔ ∃ merged classes,
      merged.revise revision = others ∧ classes.reviseClasses revision = peers ∧
        input.IsMatched options merged classes references := by
  constructor
  · rintro ⟨merging, navigating, matched⟩
    rw [Merged.ofInput_revise, map_eq_ok_iff] at merging
    obtain ⟨merged, merging, rfl⟩ := merging
    rw [Merged.revise, navigateClasses_revise, map_eq_ok_iff] at navigating
    obtain ⟨classes, navigating, rfl⟩ := navigating
    rw [Merged.revise, References.ofClasses_revise revision keeps] at matched
    exact ⟨merged, classes, rfl, rfl, merging, navigating, matched⟩
  · rintro ⟨merged, classes, rfl, rfl, merging, navigating, matched⟩
    refine ⟨?_, ?_, ?_⟩
    · rw [Merged.ofInput_revise, merging]
      rfl
    · rw [Merged.revise, navigateClasses_revise, navigating]
      rfl
    · rw [Merged.revise, References.ofClasses_revise revision keeps, matched]

/-! ## Empty lists among attributes that equal each other -/

/-- Whether of two attributes that equal each other one declares an empty member list and the other one with
members. -/
def References.Mixes (classes : Table Name Resolved.Class) (references : References) : Prop :=
  ∃ first second members, references.Equal first second ∧
    (slotAttribute? classes first).bind (·.union) = some [] ∧
    (slotAttribute? classes second).bind (·.union) = some members ∧ members ≠ []

/-- Whether an input has references by which of two attributes that equal each other one declares an empty
member list and the other one with members. -/
def ModelInput.MixesLists (input : ModelInput) (options : AnalysisOptions) : Prop :=
  ∃ merged classes references, input.IsMatched options merged classes references ∧
    ∃ first second members, references.Equal first second ∧
      (input.record? first).bind (·.union) = some [] ∧
      (input.record? second).bind (·.union) = some members ∧ members ≠ []

theorem ModelInput.IsMatched.mixesLists_iff {input : ModelInput} {options : AnalysisOptions} {merged : Merged}
    {classes : Table Name Resolved.Class} {references : References}
    (isMatched : input.IsMatched options merged classes references) :
    input.MixesLists options ↔ references.Mixes classes := by
  have unions : ∀ key, (slotAttribute? classes key).bind (·.union) = (input.record? key).bind (·.union) := by
    intro key
    have restated := input.restates_record? isMatched.merging isMatched.navigating key
    generalize slotAttribute? classes key = found, input.record? key = record at restated
    cases restated with
    | none => rfl
    | some restates => exact restates.union
  simp only [References.Mixes, unions]
  constructor
  · rintro ⟨_, _, _, also, mixes⟩
    obtain ⟨rfl, rfl, rfl⟩ := isMatched.unique also
    exact mixes
  · exact fun mixes => ⟨merged, classes, references, isMatched, mixes⟩

section Consistency

variable {classes : Table Name Resolved.Class} {references : References}

theorem Resolved.Attribute.union_withoutEmptyLists (className : Name) (attr : Attribute) :
    (attr.revise .withoutEmptyLists className).union = attr.memberList? := rfl

theorem References.resemble_withoutEmptyLists :
    References.Resemble classes (classes.reviseClasses .withoutEmptyLists) references references where
  scalars key := (slotAttribute?_revise .withoutEmptyLists classes (fun _ _ => rfl) key).symm
  memberLists key := by
    refine (slotAttribute?_revise .withoutEmptyLists classes (fun className attr => ?_) key).symm
    rw [Resolved.Attribute.memberList?, attr.union_withoutEmptyLists, Resolved.Attribute.memberList?,
      Option.filter_filter]
    simp only [Bool.and_self]
  linked := rfl
  choiceLinks _ := Iff.rfl

theorem References.declaresUnion_iff {key : SlotKey} {members : NameSet} :
    references.DeclaresUnion classes key members ↔ ∃ other names, references.Equal key other ∧
      (slotAttribute? classes other).bind (·.union) = some names ∧ .ofList names = members := by
  simp only [DeclaresUnion, DeclaredBy, Option.map_eq_some_iff, Option.bind_eq_some_iff]
  constructor
  · rintro ⟨other, attr, equal, counts, names, declared, rfl⟩
    exact ⟨other, names, equal, ⟨attr, counts, declared⟩, rfl⟩
  · rintro ⟨other, names, equal, ⟨attr, counts, declared⟩, rfl⟩
    exact ⟨other, attr, equal, counts, names, declared, rfl⟩

/-- Without the empty lists only lists with members are declared. -/
theorem References.filled_withoutEmptyLists {key : SlotKey} {members : NameSet}
    (declared : references.DeclaresUnion (classes.reviseClasses .withoutEmptyLists) key members) :
    members.isEmpty = false := by
  obtain ⟨other, attr, _, counts, given⟩ := declared
  have union := slotAttribute?_revise .withoutEmptyLists classes
    (fun className attr => attr.union_withoutEmptyLists className) other
  rw [counts, Option.map_some, eq_comm, Option.map_eq_some_iff] at union
  obtain ⟨original, _, same⟩ := union
  obtain ⟨names, listed, rfl⟩ := Option.map_eq_some_iff.mp given
  rw [listed, Resolved.Attribute.memberList?, Option.filter_eq_some_iff] at same
  rw [NameSet.isEmpty_ofList, ← Bool.not_eq_true']
  exact same.2

/-- Member lists of attributes that equal each other are the same if those with members are, and none of these
stands beside an empty one. -/
theorem References.unions_of_not_mixes (unmixed : ¬references.Mixes classes)
    (filled : ∀ key first second,
      references.DeclaresUnion (classes.reviseClasses .withoutEmptyLists) key first →
      references.DeclaresUnion (classes.reviseClasses .withoutEmptyLists) key second → first = second)
    {key : SlotKey} {first second : NameSet} (left : references.DeclaresUnion classes key first)
    (right : references.DeclaresUnion classes key second) : first = second := by
  have kept : ∀ members, references.DeclaresUnion classes key members → members.isEmpty = false →
      references.DeclaresUnion (classes.reviseClasses .withoutEmptyLists) key members :=
    fun members declared inhabited =>
      (resemble_withoutEmptyLists.declaresUnion_filled_iff.mp ⟨declared, inhabited⟩).1
  obtain ⟨one, names, oneEqual, oneDeclared, rfl⟩ := declaresUnion_iff.mp left
  obtain ⟨two, others, twoEqual, twoDeclared, rfl⟩ := declaresUnion_iff.mp right
  have equal : references.Equal one two := .trans _ _ _ (.symm _ _ oneEqual) twoEqual
  cases names with
  | nil =>
    cases others with
    | nil => rfl
    | cons name rest => exact absurd ⟨one, two, _, equal, oneDeclared, twoDeclared, by simp⟩ unmixed
  | cons name rest =>
    cases others with
    | nil => exact absurd ⟨two, one, _, .symm _ _ equal, twoDeclared, oneDeclared, by simp⟩ unmixed
    | cons other more =>
      exact filled key _ _ (kept _ left (NameSet.isEmpty_ofList _)) (kept _ right (NameSet.isEmpty_ofList _))

/-- Declarations are consistent if they are so without the empty lists and none of these stands beside one with
members. -/
theorem References.consistent_iff_withoutEmptyLists : references.Consistent classes ↔
    references.Consistent (classes.reviseClasses .withoutEmptyLists) ∧ ¬references.Mixes classes := by
  have resemble : References.Resemble classes (classes.reviseClasses .withoutEmptyLists) references
      references :=
    resemble_withoutEmptyLists
  constructor
  · intro consistent
    refine ⟨resemble.consistent consistent fun key first second left right => ?_, ?_⟩
    · have one := resemble.declaresUnion_filled_iff.mpr ⟨left, filled_withoutEmptyLists left⟩
      have two := resemble.declaresUnion_filled_iff.mpr ⟨right, filled_withoutEmptyLists right⟩
      exact consistent.unions key first second one.1 two.1
    · rintro ⟨first, second, members, equal, empty, declared, inhabited⟩
      have same : NameSet.ofList [] = NameSet.ofList members := consistent.unions first _ _
        (declaresUnion_iff.mpr ⟨first, [], .refl _, empty, rfl⟩)
        (declaresUnion_iff.mpr ⟨second, members, equal, declared, rfl⟩)
      have none := congrArg NameSet.isEmpty same
      rw [NameSet.isEmpty_ofList, NameSet.isEmpty_ofList, List.isEmpty_nil, eq_comm, List.isEmpty_iff] at none
      exact inhabited none
  · rintro ⟨consistent, unmixed⟩
    exact resemble.symm.consistent consistent fun _ _ _ => unions_of_not_mixes unmixed consistent.unions

end Consistency

/-! ## Main result -/

/-- An input has a model if it has one without its empty member lists and none of these stands beside one with
members. -/
theorem exists_model_iff_withoutEmptyLists {input : ModelInput} {options : AnalysisOptions} :
    (∃ model, analyze input options = .ok model) ↔
      (∃ model, analyze (input.revise .withoutEmptyLists) options = .ok model) ∧
        ¬input.MixesLists options := by
  rw [exists_model_iff, exists_model_iff]
  constructor
  · rintro ⟨merged, classes, references, isMatched, consistent, ranked, modelled⟩
    obtain ⟨remains, unmixed⟩ := References.consistent_iff_withoutEmptyLists.mp consistent
    refine ⟨⟨merged.revise _, classes.reviseClasses _, references,
      (ModelInput.isMatched_revise_iff fun _ _ _ => rfl).mpr ⟨merged, classes, rfl, rfl, isMatched⟩,
      remains, ?_, ?_⟩, fun mixes => unmixed (isMatched.mixesLists_iff.mp mixes)⟩
    · rwa [Merged.revise, ordinalTable_revise]
    · rwa [Merged.revise, Declaration.StateModel.resolve_revise]
  · rintro ⟨⟨_, _, references, cleared, consistent, ranked, modelled⟩, unmixed⟩
    obtain ⟨merged, classes, rfl, rfl, isMatched⟩ :=
      (ModelInput.isMatched_revise_iff fun _ _ _ => rfl).mp cleared
    rw [Merged.revise, ordinalTable_revise] at ranked
    rw [Merged.revise, Declaration.StateModel.resolve_revise] at modelled
    refine ⟨merged, classes, references, isMatched, ?_, ranked, modelled⟩
    exact References.consistent_iff_withoutEmptyLists.mpr
      ⟨consistent, fun mixes => unmixed (isMatched.mixesLists_iff.mpr mixes)⟩

/-- Without its empty member lists an input has the model that it has with them, but for these. -/
theorem analyze_withoutEmptyLists {input : ModelInput} {options : AnalysisOptions} {model : Model}
    (success : analyze input options = .ok model) :
    analyze (input.revise .withoutEmptyLists) options = .ok (model.revise .withoutEmptyLists) := by
  obtain ⟨analysis, ran, rfl⟩ := analyze_eq_ok_iff.mp success
  obtain ⟨merging, navigating, matched, _, typed, tabled, _⟩ := Analysis.ofInput_eq_ok_iff.mp ran
  have sound := (Merged.wellFormed merging).navigate navigating
  have rematched := (References.ofClasses_revise .withoutEmptyLists (fun _ _ _ => rfl) _ _).trans matched
  have consistent := References.consistent_iff_withoutEmptyLists.mp
    ((Typing.exists_typeTable_iff sound matched).mp ⟨_, _, typed, tabled⟩)
  obtain ⟨other, again, same⟩ := Analysis.exists_revise .withoutEmptyLists ran rematched
    References.resemble_withoutEmptyLists consistent.1
  exact analyze_eq_ok_iff.mpr ⟨other, again, same⟩

/-- Empty lists that are dropped do not come to stand beside lists with members. -/
theorem ModelInput.Drops.mixesLists {input other : ModelInput} (drops : input.Drops other)
    {options : AnalysisOptions} (mixes : other.MixesLists options) : input.MixesLists options := by
  obtain ⟨_, _, references, isMatched, first, second, members, equal, empty, declared, inhabited⟩ := mixes
  have keeps : ∀ className attr renames,
      Revision.withoutEmptyLists.renames className attr renames = renames := fun _ _ _ => rfl
  have cleared := (isMatched_revise_iff keeps).mpr ⟨_, _, rfl, rfl, isMatched⟩
  rw [drops.revise_eq] at cleared
  obtain ⟨merged, classes, _, _, original⟩ := (isMatched_revise_iff keeps).mp cleared
  have kept : ∀ key names, (other.record? key).bind (·.union) = some names →
      (input.record? key).bind (·.union) = some names := by
    intro key names given
    have related := drops.record? key
    generalize input.record? key = attr, other.record? key = peer at related given
    cases related with
    | none => exact given
    | some same =>
      cases same with
      | kept => exact given
      | dropped => cases given
  exact ⟨merged, classes, references, original, first, second, members, equal, kept _ _ empty,
    kept _ _ declared, inhabited⟩

/-- The types of all attributes of a model, regular before ignored, by the names of the classes. -/
def Model.attributeTypes (model : Model) : Table Name (List (Name × Option AttributeType)) :=
  model.classes.mapValues fun _ cls => cls.allAttributes.map fun attr => (attr.name, attr.type)

theorem Model.attributeTypes_revise (revision : Revision) (model : Model) :
    (model.revise revision).attributeTypes = model.attributeTypes := by
  refine Table.ext ?_
  change (model.classes.entries.map _).map _ = model.classes.entries.map _
  rw [List.map_map]
  refine List.map_congr_left fun entry _ => ?_
  simp only [Function.comp_apply, Resolved.Class.allAttributes_revise, List.map_map]
  rfl

namespace ModelInput

/-- An input from which empty member lists are dropped has a model if the input itself has one. The input
itself has one only if, besides, no two attributes that equal each other declare an empty list and one with
members. Where both have a model, these differ in the empty lists alone: references, types and the type table
are the same. -/
theorem models_without_empty_lists {input other : ModelInput} (drops : input.Drops other)
    (options : AnalysisOptions) :
    ((∃ model, analyze input options = .ok model) ↔
      (∃ model, analyze other options = .ok model) ∧ ¬input.MixesLists options) ∧
    ∀ model peer, analyze input options = .ok model → analyze other options = .ok peer →
      peer.referential = model.referential ∧ peer.attributeTypes = model.attributeTypes ∧
        peer.types = model.types ∧ peer.revise .withoutEmptyLists = model.revise .withoutEmptyLists := by
  constructor
  · have cleared : (∃ model, analyze other options = .ok model) ↔ _ := exists_model_iff_withoutEmptyLists
    rw [exists_model_iff_withoutEmptyLists, cleared, drops.revise_eq]
    refine ⟨fun ⟨cleared, unmixed⟩ => ⟨⟨cleared, unmixed ∘ drops.mixesLists⟩, unmixed⟩, ?_⟩
    exact fun ⟨⟨cleared, _⟩, unmixed⟩ => ⟨cleared, unmixed⟩
  · intro model peer success also
    have cleared := analyze_withoutEmptyLists also
    rw [drops.revise_eq, analyze_withoutEmptyLists success] at cleared
    have same := Except.ok.inj cleared.symm
    refine ⟨congrArg (·.referential) same, ?_, congrArg (·.types) same, same⟩
    rw [← peer.attributeTypes_revise .withoutEmptyLists, same, model.attributeTypes_revise]

end ModelInput

namespace Sample

/-- Items with a labelled code, and tags that refer to them by it, with member lists for both. -/
def tags (item tag : Option (List Name)) : ModelInput :=
  { subsystems := [
      { name := "Stock"
        classes := [
          { name := "Item"
            attributes := [
              { name := "Code", scalar := some "Label", union := item, identifiers := [.first] }] },
          { name := "Tag", attributes := [{ name := "Code", union := tag, relationships := [⟨"R1"⟩] }] }]
        relationships := [
          ⟨⟨"R1"⟩, .association ⟨"Tag", "is on", .many, false⟩ ⟨"Item", "bears", .one, false⟩ none⟩] }] }

theorem tags_drops (item : Option (List Name)) : (tags item (some [])).Drops (tags item none) :=
  ⟨.cons ⟨.cons ⟨.cons (.kept _) .nil, .nil, rfl⟩
    (.cons ⟨.cons (.dropped rfl) .nil, .nil, rfl⟩ .nil), rfl⟩ .nil, rfl⟩

end Sample

namespace ModelInput

/-- A code without member lists keeps its label when the tag loses its empty one. -/
theorem models_without_empty_lists_tags : ∃ model peer,
    (Sample.tags none (some [])).Drops (Sample.tags none none) ∧
    analyze (Sample.tags none (some [])) {} = .ok model ∧ analyze (Sample.tags none none) {} = .ok peer ∧
    model.types.scalars = ["Label"] ∧ ¬(Sample.tags none (some [])).MixesLists {} ∧
    peer.referential = model.referential ∧ peer.attributeTypes = model.attributeTypes ∧
    peer.types = model.types := by
  have ran : ((analyze (Sample.tags none (some []))).toOption.map (·.types.scalars)) = some ["Label"] := by
    decide +kernel
  simp only [Option.map_eq_some_iff, toOption_eq_some_iff] at ran
  obtain ⟨model, success, scalars⟩ := ran
  have drops := Sample.tags_drops none
  obtain ⟨succeeds, same⟩ := models_without_empty_lists drops {}
  obtain ⟨⟨peer, also⟩, unmixed⟩ := succeeds.mp ⟨model, success⟩
  obtain ⟨referential, attributeTypes, types, _⟩ := same model peer success also
  exact ⟨model, peer, drops, success, also, scalars, unmixed, referential, attributeTypes, types⟩

/-- A tag with an empty member list beside a code with two members has no model, and has one without it. -/
theorem empty_list_conflicts_tags :
    (Sample.tags (some ["Number", "Text"]) (some [])).Drops (Sample.tags (some ["Number", "Text"]) none) ∧
    (∃ model, analyze (Sample.tags (some ["Number", "Text"]) none) {} = .ok model) ∧
    ∀ model, analyze (Sample.tags (some ["Number", "Text"]) (some [])) {} ≠ .ok model := by
  have ran : (analyze (Sample.tags (some ["Number", "Text"]) none)).toOption.isSome = true := by
    decide +kernel
  have failed : (analyze (Sample.tags (some ["Number", "Text"]) (some []))).toOption.isSome = false := by
    decide +kernel
  refine ⟨Sample.tags_drops _, ?_, fun model success => ?_⟩
  · obtain ⟨model, success⟩ := Option.isSome_iff_exists.mp ran
    exact ⟨model, toOption_eq_some_iff.mp success⟩
  · rw [success] at failed
    cases failed

end ModelInput

end ClassModel
