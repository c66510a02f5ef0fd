import ClassModel.Proofs.Recording

/-! # The relationships that attributes name

A number that an attribute formalizes or chooses over leads to a relationship of the model in which the
class of the attribute is a referring end. Ordinal relationships are looked at from their own side only:
nothing looks up an ordinal number that an attribute merely lists, nor the number that it ranks by.
-/

namespace ClassModel

/-- The classes that refer over a relationship of the shape: the association class if there is one,
else the class on either side; the subclasses of a generalization. -/
def Shape.referringClasses : Shape → List Name
  | .association _ _ (some associationClass) => [associationClass]
  | .association passive active none => [passive.className, active.className]
  | .generalization _ subclasses => subclasses

/-- A class that has far ends over a relationship refers over it. -/
theorem Resolved.Relationship.mem_referringClasses {relationship : Relationship} {className : Name}
    {ends : List (Side × Name)} (offered : relationship.farEnds? className = some ends) :
    className ∈ relationship.shape.referringClasses := by
  unfold farEnds? at offered
  split at offered
  · rename_i passive active associationClass shaped
    rw [shaped]
    split at offered
    · rename_i same
      exact List.mem_singleton.mpr same.symm
    · cases offered
  · rename_i passive active shaped
    rw [shaped]
    split at offered
    · rename_i same
      exact same ▸ List.mem_cons_self ..
    · split at offered
      · rename_i same
        exact same ▸ List.mem_cons_of_mem _ (List.mem_singleton_self _)
      · cases offered
  · rename_i superclass subclasses shaped
    rw [shaped]
    split at offered
    · rename_i listed
      exact listed
    · cases offered

/-- The class that refers over a plain reflexive association is on both of its sides. -/
theorem Shape.exists_of_isPlainReflexive {shape : Shape} (reflexive : shape.isPlainReflexive = true)
    {className : Name} (refers : className ∈ shape.referringClasses) :
    ∃ passive active, shape = .association passive active none ∧ passive.className = className ∧
      active.className = className := by
  unfold isPlainReflexive at reflexive
  split at reflexive
  · rename_i passive active
    have same : passive.className = active.className := of_decide_eq_true reflexive
    refine ⟨passive, active, rfl, ?_⟩
    simpa [referringClasses, same, eq_comm] using refers
  · cases reflexive

namespace ClassMatches

variable {classes : Table Name Resolved.Class} {relationships : Table Rnum Resolved.Relationship}

/-- A class is matched over the relationships that some attribute of it chooses over. -/
theorem exists_mem_choices {cls : Resolved.Class} {found : ClassMatches}
    (matched : ofClass classes relationships cls = .ok found) {attr : Resolved.Attribute}
    (owned : attr ∈ cls.allAttributes) {rnum : Rnum} (chooses : rnum ∈ attr.unionRelationships) :
    ∃ sides, (rnum, sides) ∈ found.choices := by
  obtain ⟨layout, references, choices, laid, _, runs, rfl⟩ := ofClass_eq_ok_iff.mp matched
  have member := (Layout.mem_unionInclusion_iff laid).mpr ⟨attr, owned, rfl, chooses⟩
  cases held : layout.unionInclusion.get? rnum with
  | none => simp [Layout.listedFor, held] at member
  | some attrs =>
    obtain ⟨result, present, ran⟩ := exists_left_of_forall₂ runs.flip (Table.get?_eq_some_iff.mp held)
    obtain ⟨_, _, _, same⟩ := matchOver_eq_ok_iff.mp ran
    exact ⟨result.2, by rw [← same]; exact present⟩

/-- What an attribute of a matched class formalizes or chooses over leads to a relationship that the
class refers over. -/
theorem exists_referring (sound : WellFormed relationships classes) {cls : Resolved.Class}
    (known : classes.get? cls.name = some cls) {found : ClassMatches}
    (matched : ofClass classes relationships cls = .ok found) {attr : Resolved.Attribute}
    (owned : attr ∈ cls.allAttributes) {rnum : Rnum}
    (named : rnum ∈ attr.formalizes ∨ rnum ∈ attr.unionRelationships) :
    ∃ relationship, relationships.get? rnum = some relationship ∧
      cls.name ∈ relationship.shape.referringClasses := by
  rcases named with formalizes | chooses
  · obtain ⟨sides, present⟩ := (exists_mem_references_iff matched).mpr ⟨attr, owned, formalizes⟩
    obtain ⟨_, _, _, complete, _⟩ := references_complete sound known matched present
    obtain ⟨relationship, related, offered⟩ := complete.sides
    exact ⟨relationship, related, Resolved.Relationship.mem_referringClasses offered⟩
  · obtain ⟨sides, present⟩ := exists_mem_choices matched owned chooses
    obtain ⟨_, _, complete, _⟩ := choices_complete sound matched present
    obtain ⟨relationship, related, offered⟩ := complete.sides
    exact ⟨relationship, related, Resolved.Relationship.mem_referringClasses offered⟩

end ClassMatches

namespace Model

/-- A relationship that an attribute lists, unless it is ordinal, or chooses over is one of the model,
and the class of the attribute refers over it; an ordinal one has the class on both sides. -/
theorem numbers_anchored {input : ModelInput} {options : AnalysisOptions} {model : Model}
    (success : analyze input options = .ok model) {className : Name} {cls : Resolved.Class}
    (known : model.classes.get? className = some cls) {attr : Resolved.Attribute}
    (owned : attr ∈ cls.allAttributes) {rnum : Rnum}
    (named : (rnum ∈ attr.relationships ∧ rnum.isOrdinal = false) ∨ rnum ∈ attr.unionRelationships) :
    ∃ relationship, model.relationships.get? rnum = some relationship ∧
      className ∈ relationship.shape.referringClasses ∧
      (rnum.isOrdinal = true → ∃ passive active, relationship.shape = .association passive active none ∧
        passive.className = className ∧ active.className = className) := by
  obtain ⟨analysis, ran, rfl⟩ := analyze_eq_ok_iff.mp success
  obtain ⟨merging, navigating, matched, _⟩ := Analysis.ofInput_eq_ok_iff.mp ran
  have sound := (Merged.wellFormed merging).navigate navigating
  obtain ⟨original, found, rfl⟩ := Analysis.get?_classes_model.mp known
  obtain rfl := sound.className _ _ found
  obtain ⟨attr, listed, rfl⟩ := Typing.mem_allAttributes_annotate_iff.mp owned
  obtain ⟨results, runs, _⟩ := References.ofClasses_eq_ok_iff.mp matched
  obtain ⟨matching, _, run⟩ := References.exists_matching runs found
  have used : rnum ∈ attr.formalizes ∨ rnum ∈ attr.unionRelationships := by
    by_cases chooses : rnum ∈ attr.unionRelationships
    · exact .inr chooses
    · obtain ⟨lists, plain⟩ := named.resolve_right chooses
      exact .inl (Resolved.Attribute.mem_formalizes_iff.mpr
        ⟨by simpa [Resolved.Attribute.isUnionOver] using chooses, .inr ⟨lists, plain⟩⟩)
  obtain ⟨relationship, related, refers⟩ := ClassMatches.exists_referring sound found run listed used
  refine ⟨relationship, related, refers, fun ordinal => ?_⟩
  refine Shape.exists_of_isPlainReflexive (sound.ordinals _ _ related ?_) refers
  rwa [Resolved.Relationship.isOrdinal, sound.rnum _ _ related]

end Model

namespace Sample

/-- A runner is ranked by a relationship on runners, and takes the type of a heat from whoever runs
ahead; a horse lists a relationship of the run that is not its own, and one that nobody declares. -/
def race : ModelInput :=
  { subsystems := [
      { name := "Race"
        classes := [
          { name := "Runner"
            attributes := [
              { name := "Position", scalar := some "Number", identifiers := [.first]
                relationships := [⟨"O1"⟩], ranking := some ⟨"O1"⟩ }]
            ignoredAttributes := [
              { name := "Ahead", unionRelationships := [⟨"O1"⟩], renames := [⟨⟨"O1"⟩, "Position"⟩] }] },
          { name := "Horse"
            attributes := [
              { name := "Name", scalar := some "Text", identifiers := [.first]
                relationships := [⟨"O1"⟩, ⟨"O9"⟩], ranking := some ⟨"O9"⟩ }] }]
        relationships := [
          ⟨⟨"O1"⟩, .association ⟨"Runner", "is ahead of", .one, true⟩
            ⟨"Runner", "is behind", .one, true⟩ none⟩] }] }

end Sample

namespace Model

/-- The relationship that a runner chooses over has runners on both sides. -/
theorem numbers_anchored_race : ∃ model cls attr relationship,
    analyze Sample.race = .ok model ∧ model.classes.get? "Runner" = some cls ∧
    attr ∈ cls.allAttributes ∧ ⟨"O1"⟩ ∈ attr.unionRelationships ∧
    model.relationships.get? ⟨"O1"⟩ = some relationship ∧
    "Runner" ∈ relationship.shape.referringClasses ∧ ∃ passive active,
      relationship.shape = .association passive active none ∧ passive.className = "Runner" ∧
        active.className = "Runner" := by
  have ran : ((analyze Sample.race).toOption.bind fun model =>
      (model.classes.get? "Runner").bind fun cls =>
      (cls.allAttributes.find? fun attr => attr.unionRelationships.contains ⟨"O1"⟩).map (·.name)) =
      some "Ahead" := by
    decide +kernel
  simp only [Option.bind_eq_some_iff, Option.map_eq_some_iff, toOption_eq_some_iff] at ran
  obtain ⟨model, success, cls, known, attr, found, _⟩ := ran
  have owned := List.mem_of_find?_eq_some found
  have chooses : ⟨"O1"⟩ ∈ attr.unionRelationships := by simpa using List.find?_some found
  obtain ⟨relationship, related, refers, sides⟩ := numbers_anchored success known owned (.inr chooses)
  exact ⟨model, cls, attr, relationship, success, known, owned, chooses, related, refers,
    sides (by decide)⟩

/-- A horse is in the model with a number that is no relationship of the model, to rank by as well, and
with one of a relationship that runners only take part in. -/
theorem numbers_dangling_race : ∃ model cls attr relationship,
    analyze Sample.race = .ok model ∧ model.classes.get? "Horse" = some cls ∧
    attr ∈ cls.allAttributes ∧ attr.relationships = [⟨"O1"⟩, ⟨"O9"⟩] ∧ attr.ranking = some ⟨"O9"⟩ ∧
    model.relationships.get? ⟨"O9"⟩ = none ∧ model.relationships.get? ⟨"O1"⟩ = some relationship ∧
    relationship.shape.classNames = ["Runner", "Runner"] := by
  have ran : ((analyze Sample.race).toOption.bind fun model =>
      (model.classes.get? "Horse").bind fun cls =>
      cls.allAttributes.head?.bind fun attr =>
      (model.relationships.get? ⟨"O1"⟩).map fun relationship =>
        (attr.relationships, attr.ranking, model.relationships.get? ⟨"O9"⟩,
          relationship.shape.classNames)) =
      some ([⟨"O1"⟩, ⟨"O9"⟩], some ⟨"O9"⟩, none, ["Runner", "Runner"]) := by
    decide +kernel
  simp only [Option.bind_eq_some_iff, Option.map_eq_some_iff, toOption_eq_some_iff, Prod.mk.injEq] at ran
  obtain ⟨model, success, cls, known, attr, first, relationship, related, lists, ranks, absent, sides⟩ := ran
  exact ⟨model, cls, attr, relationship, success, known, List.mem_of_mem_head? first, lists, ranks, absent,
    related, sides⟩

end Model

end ClassModel
