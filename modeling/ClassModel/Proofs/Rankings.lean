import ClassModel.Proofs.NavigableEnds

/-! # What ordinal relationships rank by

An ordinal relationship asks its class for one identifier group that is made up of the attributes that list
the relationship, and for one attribute that ranks by it. The ordinal table tells both for every ordinal
relationship, in order; or else the error is about the first that does not have them, about the group before
the attribute. The two are looked for apart from each other: the attribute need not be one of the group.
-/

namespace ClassModel

namespace Resolved.Class

/-- The identifier groups of a class that are made up of the attributes that list a relationship. -/
def groupsListing (cls : Class) (rnum : Rnum) : Set IdGroup :=
  {group | ∃ members, cls.identifiers.members? group = some members ∧
    ∀ name, name ∈ members ↔ ∃ attr ∈ cls.allAttributes, attr.name = name ∧ rnum ∈ attr.relationships}

/-- Whether an attribute and no other record of its class ranks by a relationship. -/
def RankedOnlyBy (cls : Class) (rnum : Rnum) (attr : Attribute) : Prop :=
  ∃ before after, cls.allAttributes = before ++ attr :: after ∧ attr.ranking = some rnum ∧
    ∀ other ∈ before ++ after, other.ranking ≠ some rnum

/-- Whether a class has what an ordinal relationship asks for. -/
structure Ranks (cls : Class) (rnum : Rnum) : Prop where
  group : ∃! group, group ∈ cls.groupsListing rnum
  ranking : ∃ attr, cls.RankedOnlyBy rnum attr

end Resolved.Class

/-- Whether a relationship is on a class of the model, with the class on both of its sides. -/
structure Resolved.Relationship.IsOn (classes : Table Name Class) (relationship : Relationship) (cls : Class) :
    Prop where
  known : classes.get? cls.name = some cls
  reflexive : relationship.shape.IsReflexiveOn cls.name

/-- Whether what is known of an ordinal relationship is right. -/
structure OrdinalInfo.Describes (classes : Table Name Resolved.Class) (relationship : Resolved.Relationship)
    (info : OrdinalInfo) : Prop where
  rnum : info.rnum = relationship.rnum
  ranked : ∃ cls, relationship.IsOn classes cls ∧ info.className = cls.name ∧
    cls.groupsListing relationship.rnum = {info.group} ∧
    ∃ attr, cls.RankedOnlyBy relationship.rnum attr ∧ attr.name = info.rankingAttribute
  phrases : ∃ passive active, relationship.shape = .association passive active none ∧
    info.ascendingPhrase = passive.phrase ∧ info.descendingPhrase = active.phrase

/-- What is wrong with an ordinal relationship on a class: it has no group, or several, that are made up of the
attributes that list it; or it has one, but the attributes that rank by it are none or several. -/
inductive OrdinalFault (rnum : Rnum) (cls : Resolved.Class) : AnalysisError → Prop where
  | group (unclear : ¬∃! group, group ∈ cls.groupsListing rnum) :
      OrdinalFault rnum cls (.ordinalIdentifierMismatch rnum cls.name
        ((cls.allAttributes.filter fun attr => rnum ∈ attr.relationships).map (·.name)))
  | ranking (clear : ∃! group, group ∈ cls.groupsListing rnum) (unranked : ¬∃ attr, cls.RankedOnlyBy rnum attr) :
      OrdinalFault rnum cls (.ordinalRankingAttribute rnum cls.name
        ((cls.allAttributes.filter fun attr => attr.ranking = some rnum).map (·.name)))

namespace OrdinalInfo

variable {cls : Resolved.Class} {rnum : Rnum}

theorem groupsOf_boundBy_eq_singleton_iff {group : IdGroup} :
    groupsOf cls (boundBy cls rnum) = [group] ↔ cls.groupsListing rnum = {group} := by
  have distinct : (groupsOf cls (boundBy cls rnum)).Nodup :=
    cls.identifiers.nodup_defined.sublist (List.filter_sublist.map _)
  have listed : ∀ other, other ∈ groupsOf cls (boundBy cls rnum) ↔ other ∈ cls.groupsListing rnum := by
    intro other
    have bound : ∀ name, name ∈ boundBy cls rnum ↔
        ∃ attr ∈ cls.allAttributes, attr.name = name ∧ rnum ∈ attr.relationships := by
      intro name
      simp [boundBy, and_assoc, and_comm]
    simp only [groupsOf, List.mem_map, List.mem_filter, Prod.exists, Identifiers.mem_groups_iff,
      decide_eq_true_eq, NameSet.ofList_eq_iff, bound, exists_and_right, exists_eq_right]
    rfl
  rw [eq_singleton_iff_of_nodup distinct]
  simp only [listed, Set.ext_iff, Set.mem_singleton_iff]

theorem exists_groupsOf_boundBy_iff :
    (∃ group, groupsOf cls (boundBy cls rnum) = [group]) ↔ ∃! group, group ∈ cls.groupsListing rnum := by
  simp only [groupsOf_boundBy_eq_singleton_iff, Set.singleton_iff_unique_mem]

theorem rankedBy_eq_singleton_iff {name : Name} :
    rankedBy cls rnum = [name] ↔ ∃ attr, cls.RankedOnlyBy rnum attr ∧ attr.name = name := by
  rw [rankedBy, List.map_eq_singleton_iff]
  refine exists_congr fun attr => and_congr_left fun _ => ?_
  rw [List.filter_eq_cons_iff]
  simp only [Resolved.Class.RankedOnlyBy, List.filter_eq_nil_iff, decide_eq_true_eq, List.mem_append, or_imp,
    forall_and]
  refine exists_congr fun before => exists_congr fun after => and_congr_right fun _ => ?_
  tauto

theorem ofClass_eq_ok_iff {relationship : Resolved.Relationship} {info : OrdinalInfo} :
    ofClass relationship cls = .ok info ↔
      cls.groupsListing relationship.rnum = {info.group} ∧
      (∃ attr, cls.RankedOnlyBy relationship.rnum attr ∧ attr.name = info.rankingAttribute) ∧
      info.rnum = relationship.rnum ∧ info.className = cls.name ∧
      info.ascendingPhrase = (relationship.phrase? .passive).getD "" ∧
      info.descendingPhrase = (relationship.phrase? .active).getD "" := by
  rw [← groupsOf_boundBy_eq_singleton_iff, ← rankedBy_eq_singleton_iff]
  obtain ⟨number, className, group, ranking, ascending, descending⟩ := info
  unfold ofClass
  dsimp only
  split
  · rename_i only one
    split
    · rename_i attr single
      simp only [one, single, Except.ok.injEq, mk.injEq, List.cons.injEq, and_true]
      tauto
    · rename_i several
      refine ⟨nofun, ?_⟩
      rintro ⟨_, single, _⟩
      exact (several ranking single).elim
  · rename_i several
    refine ⟨nofun, ?_⟩
    rintro ⟨one, _⟩
    exact (several group one).elim

theorem fault_of_ofClass {relationship : Resolved.Relationship} {failure : AnalysisError}
    (failed : ofClass relationship cls = .error failure) : OrdinalFault relationship.rnum cls failure := by
  unfold ofClass at failed
  dsimp only at failed
  split at failed
  · rename_i group one
    have clear := exists_groupsOf_boundBy_iff.mp ⟨group, one⟩
    split at failed
    · cases failed
    · rename_i several
      cases failed
      refine .ranking clear fun ⟨attr, ranks⟩ => several attr.name ?_
      exact rankedBy_eq_singleton_iff.mpr ⟨attr, ranks, rfl⟩
  · rename_i several
    cases failed
    have same : boundBy cls relationship.rnum =
        (cls.allAttributes.filter fun attr => relationship.rnum ∈ attr.relationships).map (·.name) := by
      simp [boundBy]
    rw [same]
    refine .group fun clear => ?_
    obtain ⟨group, one⟩ := exists_groupsOf_boundBy_iff.mpr clear
    exact several group one

/-- A class gives an ordinal relationship what is known of it if it has what the relationship asks for. -/
theorem exists_ofClass_iff {relationship : Resolved.Relationship} :
    (∃ info, ofClass relationship cls = .ok info) ↔ cls.Ranks relationship.rnum := by
  simp only [ofClass_eq_ok_iff]
  constructor
  · rintro ⟨info, group, ⟨attr, ranks, _⟩, _⟩
    exact ⟨Set.singleton_iff_unique_mem.mp ⟨_, group⟩, attr, ranks⟩
  · rintro ⟨clear, attr, ranks⟩
    obtain ⟨group, only⟩ := Set.singleton_iff_unique_mem.mpr clear
    exact ⟨⟨relationship.rnum, cls.name, group, attr.name, _, _⟩, only, ⟨attr, ranks, rfl⟩, rfl, rfl, rfl, rfl⟩

end OrdinalInfo

section OnClasses

variable {classes : Table Name Resolved.Class} {relationship : Resolved.Relationship}

theorem Resolved.Relationship.IsOn.eq {cls other : Class} (on : relationship.IsOn classes cls)
    (also : relationship.IsOn classes other) : other = cls := by
  obtain ⟨known, passive, active, shaped, named, _⟩ := on
  obtain ⟨found, _, _, same, also, _⟩ := also
  rw [shaped] at same
  cases same
  rw [← also, named, known] at found
  exact (Option.some.inj found).symm

theorem Resolved.Relationship.IsOn.outcome?_eq {cls : Class} (on : relationship.IsOn classes cls)
    (ordinal : relationship.isOrdinal = true) :
    OrdinalInfo.outcome? classes relationship = some (OrdinalInfo.ofClass relationship cls) := by
  obtain ⟨known, passive, active, shaped, onPassive, _⟩ := on
  simp [OrdinalInfo.outcome?, OrdinalInfo.classOf?, perspective?, ordinal, shaped, onPassive, known]

/-- A relationship about which something is right is on a class that has what it asks for. -/
theorem OrdinalInfo.Describes.ranks {info : OrdinalInfo} (describes : info.Describes classes relationship)
    {cls : Resolved.Class} (on : relationship.IsOn classes cls) : cls.Ranks relationship.rnum := by
  obtain ⟨other, also, _, group, attr, ranks, _⟩ := describes.ranked
  obtain rfl := on.eq also
  exact ⟨Set.singleton_iff_unique_mem.mp ⟨_, group⟩, attr, ranks⟩

theorem Resolved.Relationship.phrase?_association {passive active : Perspective} {associationClass : Option Name}
    (shaped : relationship.shape = .association passive active associationClass) :
    relationship.phrase? .passive = some passive.phrase ∧ relationship.phrase? .active = some active.phrase := by
  simp [phrase?, perspective?, shaped]

variable {relationships : Table Rnum Resolved.Relationship} (sound : WellFormed relationships classes)
  (listed : relationship ∈ relationships.values)

include sound listed

/-- An ordinal relationship is on a class of the model. -/
theorem Resolved.Relationship.exists_isOn (ordinal : relationship.isOrdinal = true) :
    ∃ cls, relationship.IsOn classes cls := by
  obtain ⟨rnum, held⟩ := Table.mem_values_iff.mp listed
  obtain ⟨faced, cls, onPassive, known, _⟩ := OrdinalInfo.exists_classOf sound listed ordinal
  obtain ⟨passive, active, shaped, same⟩ := Shape.isPlainReflexive_iff.mp (sound.ordinals _ _ held ordinal)
  obtain rfl : passive = faced := by simpa [perspective?, shaped] using onPassive
  have named := sound.className _ _ known
  exact ⟨cls, named ▸ known, passive, active, shaped, named.symm, same ▸ named.symm⟩

/-- Nothing is wrong with a relationship if the class that it is on has what it asks for, in case it is ordinal. -/
theorem OrdinalInfo.settles_iff :
    (∀ outcome, outcome? classes relationship = some outcome → ∃ info, outcome = .ok info) ↔
      (relationship.isOrdinal = true → ∀ cls, relationship.IsOn classes cls → cls.Ranks relationship.rnum) := by
  constructor
  · intro settles ordinal cls on
    exact exists_ofClass_iff.mp (settles _ (on.outcome?_eq ordinal))
  · intro ranks outcome found
    cases ordinal : relationship.isOrdinal with
    | false => simp [outcome?, ordinal] at found
    | true =>
      obtain ⟨cls, on⟩ := relationship.exists_isOn sound listed ordinal
      rw [on.outcome?_eq ordinal] at found
      cases found
      exact exists_ofClass_iff.mpr (ranks ordinal cls on)

/-- What comes of an ordinal relationship is what is right about it. -/
theorem OrdinalInfo.entered?_eq_some_iff_describes (ordinal : relationship.isOrdinal = true)
    {entry : Rnum × OrdinalInfo} :
    entered? classes relationship = some entry ↔
      entry.1 = relationship.rnum ∧ entry.2.Describes classes relationship := by
  rw [entered?_eq_some_iff]
  refine and_congr_right fun _ => ?_
  constructor
  · intro found
    obtain ⟨cls, on⟩ := relationship.exists_isOn sound listed ordinal
    rw [on.outcome?_eq ordinal, Option.some_inj] at found
    obtain ⟨group, ranking, rnum, className, ascending, descending⟩ := ofClass_eq_ok_iff.mp found
    obtain ⟨passive, active, shaped, _⟩ := on.reflexive
    obtain ⟨onPassive, onActive⟩ := Resolved.Relationship.phrase?_association shaped
    rw [onPassive, Option.getD_some] at ascending
    rw [onActive, Option.getD_some] at descending
    exact ⟨rnum, ⟨cls, on, className, group, ranking⟩, passive, active, shaped, ascending, descending⟩
  · rintro ⟨rnum, ⟨cls, on, className, group, ranking⟩, passive, active, shaped, ascending, descending⟩
    obtain ⟨onPassive, onActive⟩ := Resolved.Relationship.phrase?_association shaped
    rw [on.outcome?_eq ordinal, Option.some_inj, ofClass_eq_ok_iff, onPassive, onActive]
    exact ⟨group, ranking, rnum, className, ascending, descending⟩

end OnClasses

section Table

variable {classes : Table Name Resolved.Class} {relationships : Table Rnum Resolved.Relationship}
  (sound : WellFormed relationships classes)

include sound

/-- There is an ordinal table exactly if every ordinal relationship has what it asks for. -/
theorem exists_ordinalTable_iff_ranks :
    (∃ known, ordinalTable relationships classes = .ok known) ↔
      ∀ relationship ∈ relationships.values, relationship.isOrdinal = true →
        ∀ cls, relationship.IsOn classes cls → cls.Ranks relationship.rnum := by
  rw [exists_ordinalTable_iff]
  exact forall₂_congr fun relationship listed => OrdinalInfo.settles_iff sound listed

/-- Once there is an ordinal table, something comes of every ordinal relationship and of no other. -/
theorem filterMap_entered?_eq_iff (exist : ∃ known, ordinalTable relationships classes = .ok known)
    {entries : List (Rnum × OrdinalInfo)} :
    relationships.values.filterMap (OrdinalInfo.entered? classes) = entries ↔
      List.Forall₂ (fun relationship entry => entry.1 = relationship.rnum ∧
        entry.2.Describes classes relationship) (relationships.values.filter (·.isOrdinal)) entries := by
  have finds : ∀ relationship ∈ relationships.values,
      (OrdinalInfo.entered? classes relationship).isSome = relationship.isOrdinal := by
    intro relationship listed
    cases ordinal : relationship.isOrdinal with
    | false => simp [OrdinalInfo.entered?, OrdinalInfo.outcome?, ordinal]
    | true =>
      obtain ⟨cls, on⟩ := relationship.exists_isOn sound listed ordinal
      obtain ⟨info, ran⟩ := exists_ordinalTable_iff.mp exist _ listed _ (on.outcome?_eq ordinal)
      simp [OrdinalInfo.entered?, on.outcome?_eq ordinal, ran, Except.toOption]
  rw [filterMap_eq_iff_forall₂ finds]
  refine forall₂_congr_of_mem fun relationship present entry => ?_
  obtain ⟨listed, ordinal⟩ := List.mem_filter.mp present
  exact OrdinalInfo.entered?_eq_some_iff_describes sound listed ordinal

/-- The ordinal table is the list of what is right about the ordinal relationships. -/
theorem ordinalTable_eq_ok_iff {known : Table Rnum OrdinalInfo} :
    ordinalTable relationships classes = .ok known ↔
      List.Forall₂ (fun relationship entry => entry.1 = relationship.rnum ∧
        entry.2.Describes classes relationship) (relationships.values.filter (·.isOrdinal)) known.entries := by
  constructor
  · intro success
    exact (filterMap_entered?_eq_iff sound ⟨known, success⟩).mp (entries_ordinalTable sound.rnum success).symm
  · intro pairs
    have exist : ∃ others, ordinalTable relationships classes = .ok others := by
      refine (exists_ordinalTable_iff_ranks sound).mpr fun relationship listed ordinal cls on => ?_
      obtain ⟨entry, _, _, describes⟩ := exists_left_of_forall₂ pairs.flip
        (List.mem_filter.mpr ⟨listed, ordinal⟩)
      exact describes.ranks on
    obtain ⟨others, success⟩ := exist
    have same : others.entries = known.entries := by
      rw [entries_ordinalTable sound.rnum success]
      exact (filterMap_entered?_eq_iff sound ⟨others, success⟩).mpr pairs
    rw [success, Table.ext same]

/-- Where there is no ordinal table, something is wrong with an ordinal relationship before which all have what
they ask for. -/
theorem exists_ordinalFault {failure : AnalysisError}
    (failed : ordinalTable relationships classes = .error failure) :
    ∃ before relationship after cls, relationships.values = before ++ relationship :: after ∧
      (∀ earlier ∈ before, earlier.isOrdinal = true → ∀ cls, earlier.IsOn classes cls → cls.Ranks earlier.rnum) ∧
      relationship.isOrdinal = true ∧ relationship.IsOn classes cls ∧
      OrdinalFault relationship.rnum cls failure := by
  rw [← failure?_eq_some_iff, failure?_ordinalTable] at failed
  obtain ⟨before, relationship, after, split, fault, clear⟩ := List.findSome?_eq_some_iff.mp failed
  have listed : relationship ∈ relationships.values := by simp [split]
  obtain ⟨outcome, found, wrong⟩ := Option.bind_eq_some_iff.mp fault
  have ordinal : relationship.isOrdinal = true := by
    by_contra other
    simp [OrdinalInfo.outcome?, other] at found
  obtain ⟨cls, on⟩ := relationship.exists_isOn sound listed ordinal
  rw [on.outcome?_eq ordinal] at found
  cases found
  refine ⟨before, relationship, after, cls, split, fun earlier early => ?_, ordinal, on,
    OrdinalInfo.fault_of_ofClass (failure?_eq_some_iff.mp wrong)⟩
  refine (OrdinalInfo.settles_iff sound (by simp [split, early])).mp fun outcome came => ?_
  have none := clear earlier early
  rw [came, Option.bind_some] at none
  exact failure?_eq_none_iff.mp none

end Table

/-- The ordinal relationships of a run are each on one class, and they are in order exactly if each class has
what they ask for; then the table tells for each, in order, what is right about it. Otherwise the error is
about the first that is not in order. What else is in the model comes from the other parts of an analysis. -/
theorem Merged.ordinals_exact {input : ModelInput} {options : AnalysisOptions} {merged : Merged}
    (merging : ofInput input options = .ok merged) {classes : Table Name Resolved.Class}
    (has : merged.HasClasses classes) :
    (∀ relationship ∈ merged.relationships.values, relationship.isOrdinal = true →
      ∃! cls, relationship.IsOn classes cls) ∧
    ((∃ known, ordinalTable merged.relationships classes = .ok known) ↔
      ∀ relationship ∈ merged.relationships.values, relationship.isOrdinal = true →
        ∀ cls, relationship.IsOn classes cls → cls.Ranks relationship.rnum) ∧
    (∀ known, ordinalTable merged.relationships classes = .ok known ↔
      List.Forall₂ (fun relationship entry => entry.1 = relationship.rnum ∧
        entry.2.Describes classes relationship)
        (merged.relationships.values.filter (·.isOrdinal)) known.entries) ∧
    (∀ failure, ordinalTable merged.relationships classes = .error failure →
      ∃ before relationship after cls, merged.relationships.values = before ++ relationship :: after ∧
        (∀ earlier ∈ before, earlier.isOrdinal = true →
          ∀ cls, earlier.IsOn classes cls → cls.Ranks earlier.rnum) ∧
        relationship.isOrdinal = true ∧ relationship.IsOn classes cls ∧
        OrdinalFault relationship.rnum cls failure) ∧
    ∀ analysis, Analysis.ofInput input options = .ok analysis →
      analysis.merged = merged ∧
      navigateClasses merged.relationships merged.classes = .ok analysis.classes ∧
      References.ofClasses merged.relationships analysis.classes = .ok analysis.references ∧
      ordinalTable merged.relationships analysis.classes = .ok analysis.ordinals ∧
      Typing.ofReferences analysis.classes analysis.references = .ok analysis.typing := by
  have sound := has.wellFormed merging
  refine ⟨fun relationship listed ordinal => ?_, exists_ordinalTable_iff_ranks sound,
    fun known => ordinalTable_eq_ok_iff sound, fun failure failed => exists_ordinalFault sound failed,
    fun analysis ran => ?_⟩
  · obtain ⟨cls, on⟩ := relationship.exists_isOn sound listed ordinal
    exact ⟨cls, on, fun other also => on.eq also⟩
  · obtain ⟨merged', navigating, matched, ranked, typed, _⟩ := Analysis.ofInput_eq_ok_iff.mp ran
    obtain rfl := Except.ok.inj (merged'.symm.trans merging)
    exact ⟨rfl, navigating, matched, ranked, typed⟩

namespace Sample

/-- Boats are told apart by their lanes, which list the order of a regatta, but are ranked by their times. -/
def regatta : ModelInput :=
  { subsystems := [
      { name := "Regatta"
        classes := [
          { name := "Boat"
            attributes := [
              { name := "Lane", scalar := some "Number", identifiers := [.first], relationships := [⟨"O1"⟩] },
              { name := "Time", scalar := some "Duration", ranking := some ⟨"O1"⟩ }] }]
        relationships := [
          ⟨⟨"O1"⟩, .association ⟨"Boat", "is ahead of", .one, true⟩
            ⟨"Boat", "is behind", .one, true⟩ none⟩] }] }

end Sample

/-- The regatta has one ordinal relationship, and what is known of it is right: lanes tell boats apart, and times
rank them. -/
theorem Merged.ordinals_exact_regatta : ∃ merged known relationship info,
    ofInput Sample.regatta {} = .ok merged ∧
    ordinalTable merged.relationships merged.classes = .ok known ∧
    merged.relationships.values.filter (·.isOrdinal) = [relationship] ∧ known.entries = [(⟨"O1"⟩, info)] ∧
    info = ⟨⟨"O1"⟩, "Boat", .first, "Time", "is ahead of", "is behind"⟩ ∧
    info.Describes merged.classes relationship := by
  have ran : ((ofInput Sample.regatta {}).toOption.bind fun merged =>
      (ordinalTable merged.relationships merged.classes).toOption.map (·.entries)) =
      some [(⟨"O1"⟩, ⟨⟨"O1"⟩, "Boat", .first, "Time", "is ahead of", "is behind"⟩)] := by
    decide +kernel
  simp only [Option.bind_eq_some_iff, Option.map_eq_some_iff, toOption_eq_some_iff] at ran
  obtain ⟨merged, merging, known, success, entries⟩ := ran
  have pairs := ((ordinals_exact merging .merged).2.2.1 known).mp success
  rw [entries] at pairs
  obtain ⟨relationship, rest, ⟨_, describes⟩, none, only⟩ := List.forall₂_cons_right_iff.mp pairs
  rw [List.forall₂_nil_right_iff.mp none] at only
  exact ⟨merged, known, relationship, _, merging, success, only, entries, rfl, describes⟩

namespace Typing

variable (typing : Typing) {cls : Resolved.Class} {rnum : Rnum}

theorem groupsListing_annotate : (typing.annotate cls).groupsListing rnum = cls.groupsListing rnum := by
  have listed : ∀ name, (∃ attr ∈ (typing.annotate cls).allAttributes,
      attr.name = name ∧ rnum ∈ attr.relationships) ↔
      ∃ attr ∈ cls.allAttributes, attr.name = name ∧ rnum ∈ attr.relationships := by
    intro name
    constructor
    · rintro ⟨_, owned, named, lists⟩
      obtain ⟨attr, original, rfl⟩ := mem_allAttributes_annotate_iff.mp owned
      exact ⟨attr, original, named, lists⟩
    · rintro ⟨attr, original, named, lists⟩
      exact ⟨_, mem_allAttributes_annotate_iff.mpr ⟨attr, original, rfl⟩, named, lists⟩
  simp only [Resolved.Class.groupsListing, listed]
  rfl

theorem exists_rankedOnlyBy_annotate {attr : Resolved.Attribute} (ranks : cls.RankedOnlyBy rnum attr) :
    ∃ annotated, (typing.annotate cls).RankedOnlyBy rnum annotated ∧ annotated.name = attr.name := by
  obtain ⟨before, after, split, ranking, others⟩ := ranks
  simp only [annotate_eq, Resolved.Class.RankedOnlyBy, Resolved.Class.allAttributes_mapAttributes, split,
    List.map_append, List.map_cons]
  refine ⟨_, ⟨_, _, rfl, ranking, ?_⟩, rfl⟩
  intro other listed
  rw [← List.map_append] at listed
  obtain ⟨original, present, rfl⟩ := List.mem_map.mp listed
  exact others original present

end Typing

namespace Model

/-- The group of an ordinal relationship is made up of the attributes that list it, and its ranking attribute is
the one that ranks by it; this one is in the group exactly if an attribute of its name lists the relationship. -/
theorem ordinal_ranked {input : ModelInput} {options : AnalysisOptions} {model : Model}
    (success : analyze input options = .ok model) {rnum : Rnum} {info : OrdinalInfo}
    (known : model.ordinals.get? rnum = some info) :
    ∃ cls attr, model.classes.get? info.className = some cls ∧ info.group ∈ cls.groupsListing rnum ∧
      cls.RankedOnlyBy rnum attr ∧ attr.name = info.rankingAttribute ∧
      (info.rankingAttribute ∈ cls.identifiers.members info.group ↔
        ∃ other ∈ cls.allAttributes, other.name = info.rankingAttribute ∧ rnum ∈ other.relationships) := by
  obtain ⟨analysis, ran, rfl⟩ := analyze_eq_ok_iff.mp success
  obtain ⟨merging, navigating, _, ranked, _⟩ := Analysis.ofInput_eq_ok_iff.mp ran
  have sound := (Merged.wellFormed merging).navigate navigating
  obtain ⟨relationship, _, numbered, describes⟩ := exists_left_of_forall₂
    ((ordinalTable_eq_ok_iff sound).mp ranked) (Table.get?_eq_some_iff.mp known)
  obtain ⟨cls, on, named, only, attr, ranks, ranking⟩ := describes.ranked
  dsimp only at numbered
  subst numbered
  obtain ⟨annotated, ranksAnnotated, sameName⟩ := analysis.typing.exists_rankedOnlyBy_annotate ranks
  have group : info.group ∈ (analysis.typing.annotate cls).groupsListing relationship.rnum := by
    rw [Typing.groupsListing_annotate, only]
    rfl
  refine ⟨analysis.typing.annotate cls, annotated, ?_, group, ranksAnnotated, sameName.trans ranking, ?_⟩
  · rw [named]
    exact Analysis.get?_classes_model.mpr ⟨cls, on.known, rfl⟩
  · obtain ⟨members, defined, made⟩ := group
    rw [Identifiers.members, defined, Option.getD_some]
    exact made _

/-- Times rank the boats of the regatta, but do not tell them apart. -/
theorem ordinal_ranked_regatta : ∃ model info cls attr,
    analyze Sample.regatta = .ok model ∧ model.ordinals.get? ⟨"O1"⟩ = some info ∧
    model.classes.get? info.className = some cls ∧ info.group ∈ cls.groupsListing ⟨"O1"⟩ ∧
    cls.RankedOnlyBy ⟨"O1"⟩ attr ∧ attr.name = "Time" := by
  have ran : ((analyze Sample.regatta).toOption.bind fun model =>
      (model.ordinals.get? ⟨"O1"⟩).map (·.rankingAttribute)) = some "Time" := by
    decide +kernel
  simp only [Option.bind_eq_some_iff, Option.map_eq_some_iff, toOption_eq_some_iff] at ran
  obtain ⟨model, success, info, known, ranking⟩ := ran
  obtain ⟨cls, attr, found, group, ranks, named, _⟩ := ordinal_ranked success known
  exact ⟨model, info, cls, attr, success, known, found, group, ranks, named.trans ranking⟩

/-- The attribute that ranks the boats of the regatta is no member of the group of the ordinal relationship, and
does not list this one. -/
theorem ordinal_ranked_apart_regatta : ∃ model info cls,
    analyze Sample.regatta = .ok model ∧ model.ordinals.get? ⟨"O1"⟩ = some info ∧
    model.classes.get? info.className = some cls ∧
    info.rankingAttribute ∉ cls.identifiers.members info.group ∧
    ∀ attr ∈ cls.allAttributes, attr.name = info.rankingAttribute → ⟨"O1"⟩ ∉ attr.relationships := by
  have ran : ((analyze Sample.regatta).toOption.bind fun model =>
      (model.ordinals.get? ⟨"O1"⟩).bind fun info =>
      (model.classes.get? info.className).map fun cls =>
        decide (info.rankingAttribute ∉ cls.identifiers.members info.group ∧
          ∀ attr ∈ cls.allAttributes, attr.name = info.rankingAttribute → ⟨"O1"⟩ ∉ attr.relationships)) =
      some true := by
    decide +kernel
  simp only [Option.bind_eq_some_iff, Option.map_eq_some_iff, toOption_eq_some_iff, decide_eq_true_eq] at ran
  obtain ⟨model, success, info, known, cls, found, apart⟩ := ran
  exact ⟨model, info, cls, success, known, found, apart⟩

end Model

end ClassModel
