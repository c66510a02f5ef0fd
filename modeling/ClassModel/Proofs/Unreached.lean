import ClassModel.Proofs.Ordinals
import ClassModel.Proofs.SoughtNames
import ClassModel.Proofs.Slots

/-! # What no run comes to

An analysis looks up what earlier parts of it have put in place: the lists of a layout, the relationship
of a match, the spelling behind a name in a pool, the class that an ordinal relationship is on, the slots
of linked attributes. All of this is found wherever a run gets to, be it that the run fails later. The
ends of relationships name classes of the model, and records are entered under a key just where those
before them in the same place were.
-/

namespace ClassModel

namespace NamePool

/-- A name in a pool leads back to an attribute that goes by it. -/
theorem exists_spelling {attrs : List Name} {renames : Table Name Name} {pool : NamePool}
    (success : ofAttributes attrs renames = .ok pool) {key : Name} (listed : key ∈ pool.keys) :
    ∃ attr ∈ attrs, keyOf renames attr = key ∧ pool.get? key = some attr := by
  obtain ⟨attr, known⟩ := Table.mem_keys_iff.mp listed
  obtain ⟨owned, named⟩ := (get?_ofAttributes success).mp known
  exact ⟨attr, owned, named, known⟩

end NamePool

/-- The names that some attributes go by, and apart from them the attribute behind each name. The two are
filled side by side, and nothing but that makes every name have an attribute. -/
structure SpelledNames where
  names : List Name := []
  spellings : Table Name Name := .empty

namespace SpelledNames

/-- Adds the name of an attribute and then its spelling; fails with the name if it is taken. -/
def add (renames : Table Name Name) (spelled : SpelledNames) (attr : Name) : Except Name SpelledNames :=
  if NamePool.keyOf renames attr ∈ spelled.names then .error (NamePool.keyOf renames attr)
  else .ok ⟨spelled.names ++ [NamePool.keyOf renames attr],
    spelled.spellings.insert (NamePool.keyOf renames attr) attr⟩

def ofAttributes (attrs : List Name) (renames : Table Name Name) : Except Name SpelledNames :=
  attrs.foldlM (add renames) {}

/-- The names and the spellings that a pool keeps in one table. -/
def ofPool (pool : NamePool) : SpelledNames := ⟨pool.keys, pool⟩

theorem add_ofPool (renames : Table Name Name) (pool : NamePool) (attr : Name) :
    add renames (ofPool pool) attr = (pool.add renames attr).map ofPool := by
  have listed : NamePool.keyOf renames attr ∈ (ofPool pool).names ↔
      pool.contains (NamePool.keyOf renames attr) = true := Table.contains_iff.symm
  unfold add NamePool.add
  simp only [listed]
  split
  · rfl
  · rename_i absent
    rw [Table.contains_iff, ← Table.get?_eq_none_iff] at absent
    simp [Except.map, ofPool, Table.keys, Table.entries_insert_of_absent absent]

/-- Filled apart, the names and the spellings of some attributes are those that the pool of the attributes
has in one table, and both fail with the same name. -/
theorem ofAttributes_eq (attrs : List Name) (renames : Table Name Name) :
    ofAttributes attrs renames = (NamePool.ofAttributes attrs renames).map ofPool :=
  foldlM_map (add_ofPool renames) attrs .empty

end SpelledNames

/-- What the match of a partition looks up is there: a free name, also one that a choice leaves over, and
a bound name that remains after any members have the spelling of an attribute that goes by them; and what
is found has one entry for each side. -/
structure Partition.Retrieves (partition : Partition) (general : Table Name Name) : Prop where
  free : ∀ names, NamePool.ofAttributes partition.free general = .ok names → ∀ key ∈ names.keys,
    ∃ attr ∈ partition.free, NamePool.keyOf general attr = key ∧ names.get? key = some attr
  leftover : ∀ names, NamePool.ofAttributes partition.free general = .ok names →
    ∀ choice : List GroupCandidate,
      ∀ key ∈ (NameSet.ofList names.keys).difference (GroupCandidate.consumedBy choice),
        ∃ attr ∈ partition.free, NamePool.keyOf general attr = key ∧ names.get? key = some attr
  bound : ∀ source ∈ partition.sources, ∀ pool, source.pool = .ok pool → ∀ free members,
    ∀ key ∈ (pool.draft free members).remaining.keys,
      ∃ attr ∈ source.bound, NamePool.keyOf source.renames attr = key ∧ pool.bound.get? key = some attr
  each : ∀ found, partition.match? general = .ok found → List.Forall₂ (fun source side =>
    side.side = source.side ∧ side.referred = source.referred.name) partition.sources found

/-- The record that a class makes of one side of a match over a relationship that it formalizes. -/
def Posting.IsMade (relationships : Table Rnum Resolved.Relationship) (classes : Table Name Resolved.Class)
    (posting : Posting) : Prop :=
  ∃ cls layout entry result, classes.get? cls.name = some cls ∧ Layout.ofClass cls = .ok layout ∧
    entry ∈ layout.inclusion.entries ∧
    ClassMatches.matchOver classes relationships cls layout entry = .ok result ∧
    posting ∈ ClassMatches.postings relationships
      ⟨cls.name, cls.ignoredAttributes.map (·.name), [result], []⟩

/-- What holds wherever a run over the relationships and classes of a model gets to. -/
structure NothingMissing (relationships : Table Rnum Resolved.Relationship)
    (classes : Table Name Resolved.Class) : Prop where
  /-- The attributes of a relationship that a class formalizes are listed. -/
  listed : ∀ cls layout, Layout.ofClass cls = .ok layout → ∀ rnum ∈ layout.inclusion.keys,
    ∃ attrs, layout.inclusion.get? rnum = some attrs ∧ attrs ≠ []
  /-- The ends of a relationship name classes of the model. -/
  ends : ∀ cls layout rnum attrs number referred subsystem,
    Partition.ofAttributes classes relationships cls layout rnum attrs ≠
      .error (.unknownClassInRelationship number referred subsystem)
  /-- Filled apart, the names of a pool have the spellings of attributes that go by them. -/
  spelled : ∀ attrs renames pool, NamePool.ofAttributes attrs renames = .ok pool →
    ∃ spelled, SpelledNames.ofAttributes attrs renames = .ok spelled ∧ spelled.names = pool.keys ∧
      spelled.spellings = pool ∧ ∀ key ∈ spelled.names, ∃ attr ∈ attrs,
        NamePool.keyOf renames attr = key ∧ spelled.spellings.get? key = some attr
  /-- A match finds what it looks up. -/
  lookups : ∀ partition general, Partition.Retrieves partition general
  /-- The relationship of a match is in the model. -/
  related : ∀ cls layout entry result,
    ClassMatches.matchOver classes relationships cls layout entry = .ok result →
      ∃ relationship, relationships.get? result.1 = some relationship
  /-- The sides of a reflexive association with an association class have phrases. -/
  phrases : ∀ cls layout entry result,
    ClassMatches.matchOver classes relationships cls layout entry = .ok result →
      (SideMatch.kinds result.2).2 = .binaryReflexive → ∀ side ∈ result.2, ∃ phrase,
        side.key? relationships cls.name result.1 .binaryReflexive = some (.phrase phrase)
  /-- The records of a class are those of its matches. -/
  made : ∀ cls, classes.get? cls.name = some cls → ∀ found,
    ClassMatches.ofClass classes relationships cls = .ok found →
      ∀ posting ∈ found.postings relationships, posting.IsMade relationships classes
  /-- Whatever records are entered, and in whatever order, a record with a key comes to a place that keeps
  variants and one without a key to a place that does not. -/
  records : ∀ earlier posting, (∀ other ∈ earlier ++ [posting], other.IsMade relationships classes) →
    ∀ reference, (earlier.foldl ReferentialTable.post (.ofClasses classes.keys)).reference?
        posting.referred posting.rnum = some reference →
      reference.hasVariants = posting.key?.isSome
  /-- An ordinal relationship has a passive side, and the class there is in the model. -/
  ordinals : ∀ relationship ∈ relationships.values, relationship.isOrdinal = true →
    ∃ passive cls, relationship.perspective? .passive = some passive ∧
      classes.get? passive.className = some cls ∧ OrdinalInfo.classOf? classes relationship = some cls
  /-- Linked attributes have slots with sets. -/
  slots : ∀ references, References.ofClasses relationships classes = .ok references →
    ∀ link, link ∈ references.typeLinks ∨ link ∈ references.choiceLinks →
      ∀ key, key = link.source ∨ key = link.target →
        ∃ number root, (SlotTable.ofClasses classes.values).number? key = some number ∧
          ((SlotTable.ofClasses classes.values).representatives references.typeLinks)[number]? = some root

/-- A class on a side of a relationship is one that the relationship names. -/
theorem Shape.mem_classNames (shape : Shape) {side : Side} {referred : Name}
    (onSide : shape.classOn? side = some referred) : referred ∈ shape.classNames := by
  cases shape <;> cases side <;> simp_all [classOn?, classNames]

/-- What is completed for a side is a candidate of that side. -/
theorem SidePool.side_of_complete {pool : SidePool} {group : IdGroup} {draft : GroupDraft}
    {candidate : GroupCandidate} (given : (pool.complete group draft).candidate? = some candidate) :
    candidate.found.side = pool.side ∧ candidate.found.referred = pool.referred.name := by
  unfold complete at given
  split at given
  · split at given <;> cases given
    exact ⟨rfl, rfl⟩
  · split at given
    · cases given
      exact ⟨rfl, rfl⟩
    · split at given
      · cases given
      · split at given <;> cases given
        exact ⟨rfl, rfl⟩
  · cases given

namespace Partition

/-- A match has one entry for each side. -/
theorem sides_of_match? {partition : Partition} {general : Table Name Name} {found : List SideMatch}
    (success : partition.match? general = .ok found) : List.Forall₂ (fun source side =>
      side.side = source.side ∧ side.referred = source.referred.name) partition.sources found := by
  obtain ⟨names, choice, forced, _, chosen, judged⟩ := match?_eq_ok success
  obtain ⟨missing, leftover, rfl⟩ := GroupCandidate.exists_fill_of_judge judged
  rw [List.forall₂_map_right_iff]
  refine chosen.imp ?_
  rintro source candidate ⟨pool, pooled, formed⟩
  obtain ⟨outcome, listed, given⟩ := List.mem_filterMap.mp formed
  obtain ⟨entry, _, rfl⟩ := List.mem_map.mp listed
  obtain ⟨bound, _, same⟩ := bind_eq_ok_iff.mp pooled
  cases same
  simpa using SidePool.side_of_complete given

/-- A match finds what it looks up. -/
theorem retrieves (partition : Partition) (general : Table Name Name) : partition.Retrieves general where
  free names named key listed := NamePool.exists_spelling named listed
  leftover names named choice key left := by
    apply NamePool.exists_spelling named
    exact NameSet.mem_ofList.mp (NameSet.mem_difference.mp left).1
  bound source _ pool pooled free members key remains := by
    obtain ⟨bound, bounded, same⟩ := bind_eq_ok_iff.mp pooled
    cases same
    apply NamePool.exists_spelling bounded
    have unsought := (SidePool.keys_remaining_perm _ free members).mem_iff.mp remains
    exact (List.mem_filter.mp unsought).1
  each found success := sides_of_match? success

section Sides

variable {classes : Table Name Resolved.Class} {relationships : Table Rnum Resolved.Relationship}
  (sound : WellFormed relationships classes) {cls : Resolved.Class} {rnum : Rnum}

include sound

/-- Where a class has far ends over a relationship, the classes there are in the model. -/
theorem exists_sidesOf {relationship : Resolved.Relationship}
    (related : relationships.get? rnum = some relationship) {ends : List (Side × Name)}
    (offered : relationship.farEnds? cls.name = some ends) :
    ∃ sources, sidesOf classes relationships cls rnum = .ok sources := by
  have known : ∀ far ∈ ends, ∃ referred, classes.get? far.2 = some referred := by
    intro far listed
    apply sound.classNames _ _ related
    exact relationship.shape.mem_classNames (Resolved.Relationship.farEnds?_sound offered listed).1
  obtain ⟨sources, pairs⟩ := (exists_forall₂_iff (R := fun (far : Side × Name) (source : SourceSide) => ∃ referred,
    classes.get? far.2 = some referred ∧ source = { side := far.1, referred })).mpr fun far listed => by
      obtain ⟨referred, present⟩ := known far listed
      exact ⟨_, referred, present, rfl⟩
  exact ⟨sources, sidesOf_eq_ok_iff.mpr ⟨relationship, ends, related, offered, pairs⟩⟩

/-- The sides of a class over a relationship are missing where the relationship is not in the model, or where
the class does not refer over it. -/
theorem sidesOf_eq_error_iff {failure : AnalysisError} :
    sidesOf classes relationships cls rnum = .error failure ↔
      (relationships.get? rnum = none ∧ failure = .unknownReferential rnum cls.name cls.subsystem) ∨
        ∃ relationship, relationships.get? rnum = some relationship ∧ relationship.farEnds? cls.name = none ∧
          failure = .invalidReferential rnum cls.name cls.subsystem := by
  cases related : relationships.get? rnum with
  | none => simp [sidesOf, related, eq_comm]
  | some relationship =>
    cases offered : relationship.farEnds? cls.name with
    | none => simp [sidesOf, related, offered, eq_comm]
    | some ends =>
      obtain ⟨sources, ran⟩ := exists_sidesOf sound related offered
      simp [ran, offered]

/-- No class at an end of a relationship is missing. -/
theorem ofAttributes_ne_unknownClass {layout : Layout} {attrs : List Name} (number : Rnum)
    (referred subsystem : Name) : ofAttributes classes relationships cls layout rnum attrs ≠
      .error (.unknownClassInRelationship number referred subsystem) := by
  intro failed
  rcases bind_eq_error_iff.mp failed with unsided | ⟨sources, _, unplaced⟩
  · obtain ⟨_, other⟩ | ⟨_, _, _, other⟩ := (sidesOf_eq_error_iff sound).mp unsided <;> cases other
  · obtain ⟨_, attr, _, partition, _, _, step⟩ := foldlM_eq_error_iff.mp unplaced
    unfold placeAttribute at step
    split at step
    · cases step
    · obtain ⟨_, navigation, _, state, _, _, failure⟩ := foldlM_eq_error_iff.mp step
      unfold bindNavigation at failure
      split at failure <;> cases failure

end Sides

end Partition

/-- Entering a record leaves whether a place keeps variants. -/
theorem Posting.hasVariants_enterInto (posting : Posting) (held : Option Reference) :
    (posting.enterInto held).hasVariants = ((held.map (·.hasVariants)).getD posting.key?.isSome) := by
  cases held with
  | none => cases keyed : posting.key? <;> simp [enterInto, Reference.enter, Reference.hasVariants, keyed]
  | some reference =>
    obtain ⟨_, _, _ | _⟩ := reference <;> cases keyed : posting.key? <;>
      simp [enterInto, Reference.enter, Reference.hasVariants, keyed]

/-- Where every record has a key just if its relationship keeps variants, so do all places. -/
theorem ReferentialTable.hasVariants_of_postings {relationships : Table Rnum Resolved.Relationship}
    {postings : List Posting} (keyed : ∀ posting ∈ postings, ∃ relationship,
      relationships.get? posting.rnum = some relationship ∧
      posting.key?.isSome = relationship.shape.keepsVariants)
    {classNames : List Name} {referred : Name} {rnum : Rnum} {reference : Reference}
    (stored : (postings.foldl post (.ofClasses classNames)).reference? referred rnum = some reference) :
    ∃ relationship, relationships.get? rnum = some relationship ∧
      reference.hasVariants = relationship.shape.keepsVariants := by
  rw [reference?_foldl_post, reference?_ofClasses] at stored
  refine foldl_invariant (fun held => ∀ reference, held = some reference →
    ∃ relationship, relationships.get? rnum = some relationship ∧
      reference.hasVariants = relationship.shape.keepsVariants) (by simp) ?_ reference stored
  rintro posting listed held holds _ ⟨⟩
  obtain ⟨present, place⟩ := List.mem_filter.mp listed
  simp only [decide_eq_true_eq] at place
  obtain ⟨rfl, rfl⟩ := place
  rw [posting.hasVariants_enterInto]
  cases held with
  | none => exact keyed posting present
  | some reference => exact holds reference rfl

section Matching

variable {classes : Table Name Resolved.Class} {relationships : Table Rnum Resolved.Relationship}

/-- What a class posts is the record of one of its matches. -/
theorem ClassMatches.isMade_of_mem_postings {cls : Resolved.Class} (known : classes.get? cls.name = some cls)
    {found : ClassMatches} (matched : ofClass classes relationships cls = .ok found) {posting : Posting}
    (posted : posting ∈ found.postings relationships) : posting.IsMade relationships classes := by
  obtain ⟨layout, references, choices, laid, runs, _, rfl⟩ := ofClass_eq_ok_iff.mp matched
  obtain ⟨result, listed, posted⟩ := List.mem_flatMap.mp posted
  obtain ⟨entry, present, ran⟩ := exists_left_of_forall₂ runs listed
  refine ⟨cls, layout, entry, result, known, laid, present, ran, ?_⟩
  exact List.mem_flatMap.mpr ⟨result, List.mem_singleton_self _, posted⟩

variable (sound : WellFormed relationships classes)

include sound

/-- A match comes of a relationship of the model, whose far ends are its sides. -/
theorem ClassMatches.exists_relationship {cls : Resolved.Class} {layout : Layout}
    {entry : Rnum × List Name} {result : Rnum × List SideMatch}
    (matched : matchOver classes relationships cls layout entry = .ok result) :
    ∃ relationship, relationships.get? result.1 = some relationship ∧
      relationship.farEnds? cls.name = some (result.2.map fun side => (side.side, side.referred)) := by
  obtain ⟨rnum, attrs⟩ := entry
  obtain ⟨_, _, _, numbered⟩ := matchOver_eq_ok_iff.mp matched
  obtain ⟨_, _, complete⟩ := isComplete_of_matchOver sound matched
  rw [numbered]
  exact complete.sides

/-- A record has a key just if its relationship keeps variants. -/
theorem Posting.IsMade.keyed {posting : Posting} (made : posting.IsMade relationships classes) :
    ∃ relationship, relationships.get? posting.rnum = some relationship ∧
      posting.key?.isSome = relationship.shape.keepsVariants := by
  obtain ⟨cls, layout, entry, ⟨rnum, sides⟩, _, _, _, matched, posted⟩ := made
  obtain ⟨relationship, related, offered⟩ := ClassMatches.exists_relationship sound matched
  simp only [ClassMatches.postings, List.flatMap_cons, List.flatMap_nil, List.append_nil] at posted
  obtain ⟨side, listed, rfl⟩ := List.mem_map.mp posted
  have onSide := (Resolved.Relationship.farEnds?_sound offered
    (List.mem_map_of_mem (f := fun side => (side.side, side.referred)) listed)).1
  refine ⟨relationship, related, ?_⟩
  dsimp only
  rw [SideMatch.kinds_eq offered]
  exact (SideMatch.key?_spec cls.name related onSide).1

/-- A side of a match over a reflexive association with an association class goes by a phrase. -/
theorem ClassMatches.exists_phrase {cls : Resolved.Class} {layout : Layout} {entry : Rnum × List Name}
    {result : Rnum × List SideMatch}
    (matched : matchOver classes relationships cls layout entry = .ok result)
    (reflexive : (SideMatch.kinds result.2).2 = .binaryReflexive) {side : SideMatch} (listed : side ∈ result.2) :
    ∃ phrase, side.key? relationships cls.name result.1 .binaryReflexive = some (.phrase phrase) := by
  obtain ⟨relationship, related, offered⟩ := exists_relationship sound matched
  have onSide := (Resolved.Relationship.farEnds?_sound offered
    (List.mem_map_of_mem (f := fun side => (side.side, side.referred)) listed)).1
  have kinds := SideMatch.kinds_eq offered
  have keeps : relationship.shape.keepsVariants = true := by
    rw [kinds] at reflexive
    unfold Shape.kinds at reflexive
    split at reflexive
    · cases reflexive
    · split at reflexive
      · rename_i shaped same
        simp [shaped, Shape.keepsVariants, same]
      · cases reflexive
    · cases reflexive
  have present := (SideMatch.key?_spec cls.name related onSide).1
  rw [← kinds, reflexive, keeps] at present
  obtain ⟨key, keyed⟩ := Option.isSome_iff_exists.mp present
  obtain ⟨phrase, _, rfl⟩ := Option.map_eq_some_iff.mp keyed
  exact ⟨phrase, keyed⟩

end Matching

/-- The class that an ordinal relationship is on is in the model. -/
theorem OrdinalInfo.exists_classOf {classes : Table Name Resolved.Class}
    {relationships : Table Rnum Resolved.Relationship} (sound : WellFormed relationships classes)
    {relationship : Resolved.Relationship} (listed : relationship ∈ relationships.values)
    (ordinal : relationship.isOrdinal = true) :
    ∃ passive cls, relationship.perspective? .passive = some passive ∧
      classes.get? passive.className = some cls ∧ classOf? classes relationship = some cls := by
  obtain ⟨rnum, known⟩ := Table.mem_values_iff.mp listed
  have reflexive := sound.ordinals _ _ known ordinal
  have named := sound.classNames _ _ known
  unfold Shape.isPlainReflexive at reflexive
  split at reflexive
  · rename_i passive active shaped
    obtain ⟨cls, present⟩ := named passive.className (by simp [shaped, Shape.classNames])
    have found : relationship.perspective? .passive = some passive := by
      simp [Resolved.Relationship.perspective?, shaped]
    refine ⟨passive, cls, found, present, ?_⟩
    rw [classOf?, found, Option.bind_some, present]
  · cases reflexive

/-- Linked attributes have slots, and these have sets. -/
theorem TypeSpace.exists_root {classes : Table Name Resolved.Class}
    {relationships : Table Rnum Resolved.Relationship} (sound : WellFormed relationships classes)
    {references : References} (matched : References.ofClasses relationships classes = .ok references)
    {link : AttributeLink} (listed : link ∈ references.typeLinks ∨ link ∈ references.choiceLinks)
    {key : SlotKey} (linked : key = link.source ∨ key = link.target) :
    ∃ number root, (SlotTable.ofClasses classes.values).number? key = some number ∧
      ((SlotTable.ofClasses classes.values).representatives references.typeLinks)[number]? = some root := by
  have counts : (slotAttribute? classes key).isSome = true := by
    obtain ⟨source, target⟩ := References.links_anchored sound matched listed
    rcases linked with rfl | rfl
    · exact source
    · exact target
  rw [← (ofReferences_divides sound matched).located] at counts
  obtain ⟨root, located⟩ := Option.isSome_iff_exists.mp counts
  obtain ⟨number, numbered, placed⟩ := Option.bind_eq_some_iff.mp located
  exact ⟨number, root, numbered, placed⟩

/-- Over well-formed tables nothing is missing. -/
theorem WellFormed.nothingMissing {relationships : Table Rnum Resolved.Relationship}
    {classes : Table Name Resolved.Class} (sound : WellFormed relationships classes) :
    NothingMissing relationships classes where
  listed cls layout laid rnum known := by
    obtain ⟨attrs, held⟩ := Table.mem_keys_iff.mp known
    exact ⟨attrs, held, Layout.inclusion_ne_nil laid held⟩
  ends _ _ _ _ number referred subsystem :=
    Partition.ofAttributes_ne_unknownClass sound number referred subsystem
  spelled attrs renames pool success := by
    refine ⟨SpelledNames.ofPool pool, ?_, rfl, rfl, fun key listed => NamePool.exists_spelling success listed⟩
    rw [SpelledNames.ofAttributes_eq, success]
    rfl
  lookups := Partition.retrieves
  related cls layout entry result matched := by
    obtain ⟨relationship, related, _⟩ := ClassMatches.exists_relationship sound matched
    exact ⟨relationship, related⟩
  phrases _ _ _ _ matched reflexive _ listed := ClassMatches.exists_phrase sound matched reflexive listed
  made _ known _ matched _ posted := ClassMatches.isMade_of_mem_postings known matched posted
  records earlier posting made reference stored := by
    have keyed := fun other (listed : other ∈ earlier ++ [posting]) => (made other listed).keyed sound
    obtain ⟨relationship, related, holds⟩ := ReferentialTable.hasVariants_of_postings
      (fun other listed => keyed other (List.mem_append_left _ listed)) stored
    obtain ⟨same, known, own⟩ := keyed posting (by simp)
    rw [related] at known
    cases known
    rw [holds, own]
  ordinals _ listed ordinal := OrdinalInfo.exists_classOf sound listed ordinal
  slots _ matched _ listed _ linked := TypeSpace.exists_root sound matched listed linked

namespace Merged

/-- In a run, wherever it gets to once declarations are merged and hints are pinned, nothing is missing. -/
theorem nothing_missing {input : ModelInput} {options : AnalysisOptions} {merged : Merged}
    (merging : ofInput input options = .ok merged) {classes : Table Name Resolved.Class}
    (navigating : navigateClasses merged.relationships merged.classes = .ok classes) :
    NothingMissing merged.relationships classes :=
  ((wellFormed merging).navigate navigating).nothingMissing

/-- Nothing is missing for the mentoring class, and both sides of its reflexive association have phrases. -/
theorem nothing_missing_staff : ∃ merged classes cls layout result,
    ofInput Sample.staff {} = .ok merged ∧
    navigateClasses merged.relationships merged.classes = .ok classes ∧
    NothingMissing merged.relationships classes ∧ Layout.ofClass cls = .ok layout ∧
    ClassMatches.matchOver classes merged.relationships cls layout (⟨"R1"⟩, ["Mentor", "Pupil", "Office"]) =
      .ok result ∧
    result.2.length = 2 ∧ ∀ side ∈ result.2, ∃ phrase,
      side.key? merged.relationships cls.name result.1 .binaryReflexive = some (.phrase phrase) := by
  have ran : ((ofInput Sample.staff {}).toOption.bind fun merged =>
      (navigateClasses merged.relationships merged.classes).toOption.bind fun classes =>
      (classes.get? "Mentoring").bind fun cls =>
      (Layout.ofClass cls).toOption.bind fun layout =>
      (ClassMatches.matchOver classes merged.relationships cls layout
        (⟨"R1"⟩, ["Mentor", "Pupil", "Office"])).toOption.map fun result =>
      ((SideMatch.kinds result.2).2, result.2.length)) = some (.binaryReflexive, 2) := by
    decide +kernel
  simp only [Option.bind_eq_some_iff, Option.map_eq_some_iff, toOption_eq_some_iff, Prod.mk.injEq] at ran
  obtain ⟨merged, merging, classes, navigating, cls, _, layout, laid, result, matched, reflexive, two⟩ := ran
  have complete := nothing_missing merging navigating
  exact ⟨merged, classes, cls, layout, result, merging, navigating, complete, laid, matched, two,
    complete.phrases cls layout _ result matched reflexive⟩

end Merged

end ClassModel
