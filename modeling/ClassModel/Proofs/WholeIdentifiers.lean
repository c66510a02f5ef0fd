import ClassModel.Proofs.Pairings
import ClassModel.Proofs.Recording

/-! # Records of whole identifiers

The record of a match is its assignment turned round, without the ignored attributes, and these are
linked beside it. What is lost when it is turned round is a member that shares its attribute with a
later one. An ignored attribute loses nothing, and a bound one has one member only; so every member
stands once, in the record or in one link beside it, just if no free attribute of the match that is
not ignored stands for two of them. None does where no two members have one name up to case.
-/

namespace ClassModel

/-- The links of ignored attributes that the match of a record made. -/
def References.ignoredBeside (references : References) (rnum : Rnum) (data : Formalization) :
    List AttributeLink :=
  references.ignoredLinks.filter fun link =>
    link.className = data.formalizer ∧ link.rnum = rnum ∧ link.side = data.side

/-- A record and the links beside it have the members of a group once each, and nothing else. -/
structure References.IsWhole (references : References) (rnum : Rnum) (data : Formalization)
    (members : List Name) : Prop where
  once : ∀ identifier ∈ members, data.attrMap.values.count identifier +
    ((references.ignoredBeside rnum data).map (·.targetAttr)).count identifier = 1
  size : data.attrMap.size + (references.ignoredBeside rnum data).length = members.length

/-- How a class formalizes a relationship: the partition of its attributes for it, and the match of
every side. -/
def Resolved.Class.FormalizesBy (classes : Table Name Class) (relationships : Table Rnum Relationship)
    (cls : Class) (rnum : Rnum) (partition : Partition) (sides : List SideMatch) : Prop :=
  ∃ layout attrs, Layout.ofClass cls = .ok layout ∧ layout.inclusion.get? rnum = some attrs ∧
    Partition.ofAttributes classes relationships cls layout rnum attrs = .ok partition ∧
    partition.match? (layout.renamesOver rnum) = .ok sides

theorem Resolved.Class.FormalizesBy.unique {classes : Table Name Class}
    {relationships : Table Rnum Relationship} {cls : Class} {rnum : Rnum} {partition other : Partition}
    {sides otherSides : List SideMatch} (one : cls.FormalizesBy classes relationships rnum partition sides)
    (two : cls.FormalizesBy classes relationships rnum other otherSides) :
    partition = other ∧ sides = otherSides := by
  obtain ⟨layout, attrs, laid, entered, divided, matched⟩ := one
  obtain ⟨_, _, alsoLaid, alsoEntered, alsoDivided, alsoMatched⟩ := two
  cases laid.symm.trans alsoLaid
  cases entered.symm.trans alsoEntered
  cases divided.symm.trans alsoDivided
  cases matched.symm.trans alsoMatched
  exact ⟨rfl, rfl⟩

/-- Each side of a relationship that a class formalizes is covered and paired. -/
theorem Resolved.Class.FormalizesBy.exists_source {classes : Table Name Class}
    {relationships : Table Rnum Relationship} (sound : WellFormed relationships classes) {cls : Class}
    {rnum : Rnum} {partition : Partition} {sides : List SideMatch}
    (formalizes : cls.FormalizesBy classes relationships rnum partition sides) {side : SideMatch}
    (listed : side ∈ sides) : ∃ source general, classes.get? side.referred = some source.referred ∧
      SideMatch.Covers source partition.free side ∧ SideMatch.Pairs source partition.free general side := by
  obtain ⟨layout, attrs, _, _, divided, matched⟩ := formalizes
  obtain ⟨source, _, known, covers, pairs⟩ :=
    exists_left_of_forall₂ (Partition.match?_sides sound divided matched) listed
  exact ⟨source, _, known, covers, pairs⟩

namespace SideMatch

/-- An attribute stands for one member at most. -/
def StandsOnce (found : SideMatch) (attr : Name) : Prop :=
  ∀ first ∈ found.assignment.keys, ∀ second ∈ found.assignment.keys,
    found.assignment.get? first = some attr → found.assignment.get? second = some attr → first = second

instance (found : SideMatch) (attr : Name) : Decidable (found.StandsOnce attr) :=
  inferInstanceAs (Decidable (∀ first ∈ found.assignment.keys, ∀ second ∈ found.assignment.keys, _))

theorem standsOnce_iff {found : SideMatch} {attr : Name} : found.StandsOnce attr ↔ ∀ first second,
    found.assignment.get? first = some attr → found.assignment.get? second = some attr → first = second :=
  ⟨fun once first second one two =>
    once first (Table.mem_keys_of_get? one) second (Table.mem_keys_of_get? two) one two,
    fun once first _ second _ => once first second⟩

variable {source : SourceSide} {free : List Name} {general : Table Name Name} {found : SideMatch}
  (pairs : found.Pairs source free general)

include pairs

/-- Only a free attribute may stand for two members. -/
theorem Pairs.standsOnce_of_not_mem {attr : Name} (bound : attr ∉ free) : found.StandsOnce attr := by
  refine standsOnce_iff.mpr fun first second one two => ?_
  by_contra different
  exact bound (pairs.shares first second attr different one two).1

/-- Where no two members have one name up to case, every attribute stands for one. -/
theorem Pairs.standsOnce_of_nodup {members : List Name}
    (keys : ∀ identifier ∈ found.assignment.keys, identifier ∈ members)
    (owned : ∀ identifier ∈ members, identifier ∈ source.referred.attributes.map (·.name))
    (distinct : (members.map Text.lowercase).Nodup) (attr : Name) : found.StandsOnce attr := by
  intro first one second two firstHas secondHas
  have same := pairs.lowercase_eq firstHas secondHas (owned first (keys first one))
    (owned second (keys second two))
  exact List.inj_on_of_nodup_map distinct (keys first one) (keys second two) same

end SideMatch

namespace ClassMatches

variable {classes : Table Name Resolved.Class} {relationships : Table Rnum Resolved.Relationship}

theorem not_mem_ignored_iff {cls : Resolved.Class} {found : ClassMatches}
    (matched : ofClass classes relationships cls = .ok found) {attr : Name} :
    attr ∉ found.ignored ↔ cls.isIgnored attr = false := by
  obtain ⟨_, _, _, _, _, _, rfl⟩ := ofClass_eq_ok_iff.mp matched
  simp [Resolved.Class.isIgnored]

/-- The matches of a class over a relationship that it formalizes come of a partition. -/
theorem exists_formalizesBy {cls : Resolved.Class} {found : ClassMatches}
    (matched : ofClass classes relationships cls = .ok found) {rnum : Rnum} {sides : List SideMatch}
    (present : (rnum, sides) ∈ found.references) :
    ∃ partition, cls.FormalizesBy classes relationships rnum partition sides := by
  obtain ⟨layout, _, _, laid, refers, _, rfl⟩ := ofClass_eq_ok_iff.mp matched
  obtain ⟨attrs, entered, ran⟩ := exists_matchOver refers present
  obtain ⟨partition, divided, solved, _⟩ := matchOver_eq_ok_iff.mp ran
  exact ⟨partition, layout, attrs, laid, entered, divided, solved⟩

/-- A class refers to each side once. -/
theorem nodup_sides {cls : Resolved.Class} {found : ClassMatches} (sound : WellFormed relationships classes)
    (known : classes.get? cls.name = some cls) (matched : ofClass classes relationships cls = .ok found)
    {rnum : Rnum} {sides : List SideMatch} (present : (rnum, sides) ∈ found.references) :
    (sides.map (·.side)).Nodup := by
  obtain ⟨_, _, _, complete, _⟩ := references_complete sound known matched present
  obtain ⟨relationship, _, offered⟩ := complete.sides
  have same : sides.map (·.side) = (sides.map fun side => (side.side, side.referred)).map (·.1) := by
    rw [List.map_map]
    rfl
  rw [same]
  generalize sides.map (fun side => (side.side, side.referred)) = ends at offered
  unfold Resolved.Relationship.farEnds? at offered
  split at offered
  all_goals
    repeat' split at offered
    all_goals cases offered
    all_goals simp

/-- The ignored links of a class over one side of a relationship are those that the match of the side
makes with ignored attributes. -/
theorem filter_ignoredLinks {found : ClassMatches} (distinct : (found.references.map (·.1)).Nodup)
    {rnum : Rnum} {sides : List SideMatch} (present : (rnum, sides) ∈ found.references)
    (apart : (sides.map (·.side)).Nodup) {side : SideMatch} (listed : side ∈ sides) :
    found.ignoredLinks.filter (fun link => link.rnum = rnum ∧ link.side = side.side) =
      (linksOf found.className rnum side).filter fun link => found.ignored.contains link.attr := by
  unfold ignoredLinks referenceLinks
  rw [List.filter_comm, filter_flatMap_of_only (List.Nodup.of_map _ distinct) present,
    filter_flatMap_of_only (List.Nodup.of_map _ apart) listed]
  · refine congrArg _ (List.filter_eq_self.mpr fun link linked => ?_)
    obtain ⟨entry, _, rfl⟩ := List.mem_map.mp linked
    simp
  · intro other member different
    refine List.filter_eq_nil_iff.mpr fun link linked => ?_
    obtain ⟨entry, _, rfl⟩ := List.mem_map.mp linked
    have sides : other.side ≠ side.side :=
      fun same => different (List.inj_on_of_nodup_map apart member listed same)
    simp [sides]
  · intro other member different
    refine List.filter_eq_nil_iff.mpr fun link linked => ?_
    obtain ⟨_, _, linked⟩ := List.mem_flatMap.mp linked
    obtain ⟨entry, _, rfl⟩ := List.mem_map.mp linked
    have numbers : other.1 ≠ rnum :=
      fun same => different (List.inj_on_of_nodup_map distinct member present same)
    simp [numbers]

/-- In a match in which every attribute that is not ignored stands for one member, the record and the links
beside it have the members of the match once each. -/
theorem perm_formalization (found : ClassMatches) (rnum : Rnum) {side : SideMatch}
    (single : ∀ attr, attr ∉ found.ignored → side.StandsOnce attr) :
    ((found.formalization side).attrMap.values ++
      ((linksOf found.className rnum side).filter fun link => found.ignored.contains link.attr).map
        (·.targetAttr)).Perm side.assignment.keys := by
  have regular : ((side.assignment.entries.filter fun entry => !found.ignored.contains entry.2).map
      (·.2)).Nodup := by
    refine List.Nodup.map_on ?_ ((List.Nodup.of_map _ side.assignment.nodup).filter _)
    rintro ⟨first, attr⟩ one ⟨second, other⟩ two (same : attr = other)
    subst same
    obtain ⟨one, plain⟩ := List.mem_filter.mp one
    rw [SideMatch.standsOnce_iff.mp (single attr (by simpa using plain)) first second
      (Table.get?_eq_some_iff.mpr one) (Table.get?_eq_some_iff.mpr (List.mem_filter.mp two).1)]
  have recorded : (found.formalization side).attrMap.values =
      (side.assignment.entries.filter fun entry => !found.ignored.contains entry.2).map (·.1) := by
    rw [Table.values, entries_formalization_of_regular found regular, List.map_map]
    rfl
  have linked : ((linksOf found.className rnum side).filter fun link => found.ignored.contains link.attr).map
      (·.targetAttr) =
        (side.assignment.entries.filter fun entry => found.ignored.contains entry.2).map (·.1) := by
    rw [linksOf, List.filter_map, List.map_map]
    rfl
  rw [recorded, linked, ← List.map_append]
  refine (List.perm_append_comm.trans ?_).map _
  exact List.filter_append_perm _ _

/-- A member that has an attribute which is not ignored is in no link of ignored attributes, and is in the
record for that attribute if it is in the record at all. -/
theorem get?_attrMap_of_count {found : ClassMatches} {rnum : Rnum} {side : SideMatch} {identifier attr : Name}
    (assigned : side.assignment.get? identifier = some attr) (regular : attr ∉ found.ignored)
    (once : (found.formalization side).attrMap.values.count identifier +
      (((linksOf found.className rnum side).filter fun link => found.ignored.contains link.attr).map
        (·.targetAttr)).count identifier = 1) :
    (found.formalization side).attrMap.get? attr = some identifier := by
  have unlinked : identifier ∉ ((linksOf found.className rnum side).filter fun link =>
      found.ignored.contains link.attr).map (·.targetAttr) := by
    intro linked
    obtain ⟨link, kept, rfl⟩ := List.mem_map.mp linked
    obtain ⟨linked, ignored⟩ := List.mem_filter.mp kept
    obtain ⟨⟨_, other⟩, listed, rfl⟩ := List.mem_map.mp linked
    rw [Table.get?_eq_some_iff.mpr listed, Option.some.injEq] at assigned
    subst assigned
    exact regular (by simpa using ignored)
  rw [List.count_eq_zero_of_not_mem unlinked, Nat.add_zero] at once
  have recorded := List.count_pos_iff.mp (once ▸ Nat.one_pos)
  obtain ⟨other, mapped⟩ := Table.mem_values_iff.mp recorded
  have same := (assigned_of_attrMap mapped).1
  rw [assigned, Option.some.injEq] at same
  rwa [same]

end ClassMatches

namespace References

variable {classes : Table Name Resolved.Class} {relationships : Table Rnum Resolved.Relationship}

/-- A record and the links beside it that have the members in some order are whole. -/
theorem IsWhole.of_perm {references : References} {rnum : Rnum} {data : Formalization} {members : List Name}
    (nodup : members.Nodup) (perm : (data.attrMap.values ++
      (references.ignoredBeside rnum data).map (·.targetAttr)).Perm members) :
    references.IsWhole rnum data members := by
  constructor
  · intro identifier member
    rw [← List.count_append, perm.count_eq]
    exact List.count_eq_one_of_mem nodup member
  · rw [← perm.length_eq, List.length_append, List.length_map, Table.values, List.length_map]
    rfl

section Records

variable (sound : WellFormed relationships classes) {found : List ClassMatches}
  (runs : List.Forall₂ (fun cls found => ClassMatches.ofClass classes relationships cls = .ok found)
    classes.values found) {cls : Resolved.Class} (known : classes.get? cls.name = some cls)
  {matching : ClassMatches} (listed : matching ∈ found)
  (matched : ClassMatches.ofClass classes relationships cls = .ok matching) {rnum : Rnum}
  {sides : List SideMatch} (present : (rnum, sides) ∈ matching.references) {side : SideMatch}
  (sideListed : side ∈ sides)

include sound runs known listed matched present sideListed

/-- The links beside the record of a match are those that the match makes with ignored attributes. -/
theorem ignoredBeside_formalization :
    (ofMatches relationships classes.keys found).ignoredBeside rnum (matching.formalization side) =
      (ClassMatches.linksOf matching.className rnum side).filter fun link =>
        matching.ignored.contains link.attr := by
  have distinct := ClassMatches.nodup_classNames sound runs
  have own : ∀ other ∈ found, ∀ link ∈ other.ignoredLinks, link.className = other.className := by
    intro other _ link linked
    obtain ⟨_, _, linked⟩ := List.mem_flatMap.mp (List.mem_filter.mp linked).1
    obtain ⟨_, _, linked⟩ := List.mem_flatMap.mp linked
    obtain ⟨_, _, rfl⟩ := List.mem_map.mp linked
    rfl
  rw [← ClassMatches.filter_ignoredLinks (ClassMatches.nodup_references matched) present
    (ClassMatches.nodup_sides sound known matched present) sideListed]
  change (found.flatMap (·.ignoredLinks)).filter _ = _
  rw [filter_flatMap_of_only (List.Nodup.of_map _ distinct) listed]
  · refine List.filter_congr fun link linked => ?_
    simp [own matching listed link linked, ClassMatches.formalization]
  · intro other member different
    refine List.filter_eq_nil_iff.mpr fun link linked => ?_
    have names : other.className ≠ matching.className :=
      fun same => different (List.inj_on_of_nodup_map distinct member listed same)
    simp [own other member link linked, ClassMatches.formalization, names]

/-- The record of a match is whole just if every attribute that is not ignored stands for one member. -/
theorem isWhole_formalization_iff {members : List Name} (nodup : members.Nodup)
    (keys : ∀ identifier, identifier ∈ side.assignment.keys ↔ identifier ∈ members) :
    (ofMatches relationships classes.keys found).IsWhole rnum (matching.formalization side) members ↔
      ∀ attr, attr ∉ matching.ignored → side.StandsOnce attr := by
  have beside := ignoredBeside_formalization sound runs known listed matched present sideListed
  constructor
  · intro whole attr regular
    have placed : ∀ identifier, side.assignment.get? identifier = some attr →
        (matching.formalization side).attrMap.get? attr = some identifier := by
      intro identifier assigned
      apply ClassMatches.get?_attrMap_of_count assigned regular
      rw [← beside]
      exact whole.once identifier ((keys identifier).mp (Table.mem_keys_of_get? assigned))
    apply SideMatch.standsOnce_iff.mpr
    intro first second one two
    exact Option.some.inj ((placed first one).symm.trans (placed second two))
  · intro once
    apply IsWhole.of_perm nodup
    rw [beside]
    exact (matching.perm_formalization rnum once).trans
      ((List.perm_ext_iff_of_nodup side.assignment.keys_nodup nodup).mpr keys)

end Records

/-- A record and the links beside it have the members of its group once each just if no free attribute of
the match, unless it is ignored, stands for two of them. -/
theorem isWhole_iff (sound : WellFormed relationships classes) {references : References}
    (success : ofClasses relationships classes = .ok references) {referred : Name} {rnum : Rnum}
    {data : Formalization} (recorded : data ∈ references.referential.recordsAt referred rnum) :
    ∃ cls members formalizer partition sides side, classes.get? referred = some cls ∧
      cls.identifiers.members? data.group = some members ∧
      classes.get? data.formalizer = some formalizer ∧
      formalizer.FormalizesBy classes relationships rnum partition sides ∧
      side ∈ sides ∧ side.side = data.side ∧ side.referred = referred ∧
      (references.IsWhole rnum data members ↔
        ∀ attr ∈ partition.free, formalizer.isIgnored attr = false → side.StandsOnce attr) ∧
      ((members.map Text.lowercase).Nodup → ∀ attr, side.StandsOnce attr) := by
  obtain ⟨found, runs, rfl⟩ := ofClasses_eq_ok_iff.mp success
  obtain ⟨matching, listed, sides, present, side, sideListed, rfl, rfl⟩ :=
    exists_of_mem_recordsAt sound runs recorded
  obtain ⟨formalizer, known, matched⟩ := exists_class sound runs listed
  obtain ⟨partition, formalizes⟩ := ClassMatches.exists_formalizesBy matched present
  obtain ⟨source, general, target, covers, pairs⟩ := formalizes.exists_source sound sideListed
  obtain ⟨members, defined, keys⟩ := covers.members
  have nodup := sound.membersNodup _ _ target _ _ defined
  refine ⟨source.referred, members, formalizer, partition, sides, side, target, defined, ?_, formalizes,
    sideListed, rfl, rfl, ?_, ?_⟩
  · rw [ClassMatches.formalization, ClassMatches.className_of_ofClass matched]
    exact known
  · rw [isWhole_formalization_iff sound runs known listed matched present sideListed nodup keys]
    simp only [ClassMatches.not_mem_ignored_iff matched]
    refine ⟨fun once attr _ => once attr, fun once attr regular => ?_⟩
    by_cases free : attr ∈ partition.free
    · exact once attr free regular
    · exact pairs.standsOnce_of_not_mem free
  · apply pairs.standsOnce_of_nodup
    · exact fun identifier => (keys identifier).mp
    · exact sound.membersListed _ _ target _ _ defined

end References

namespace Analysis

/-- A record formalizes the whole identifier, every member standing once for an attribute of the record or
for an ignored one linked beside it, just if no free attribute that is not ignored stands for two members
in the match. So it does where no two members have one name up to case. -/
theorem identifier_whole {input : ModelInput} {options : AnalysisOptions} {analysis : Analysis}
    (success : ofInput input options = .ok analysis) {referred : Name} {rnum : Rnum} {reference : Reference}
    (stored : analysis.model.referential.reference? referred rnum = some reference) {data : Formalization}
    (listed : data ∈ reference.all) :
    ∃ cls members formalizer partition sides side, analysis.model.classes.get? referred = some cls ∧
      cls.identifiers.members? data.group = some members ∧
      analysis.classes.get? data.formalizer = some formalizer ∧
      formalizer.FormalizesBy analysis.classes analysis.merged.relationships rnum partition sides ∧
      side ∈ sides ∧ side.side = data.side ∧ side.referred = referred ∧
      (analysis.references.IsWhole rnum data members ↔
        ∀ attr ∈ partition.free, formalizer.isIgnored attr = false → side.StandsOnce attr) ∧
      ((members.map Text.lowercase).Nodup → analysis.references.IsWhole rnum data members) := by
  obtain ⟨merging, navigating, matched, _⟩ := ofInput_eq_ok_iff.mp success
  have sound := (Merged.wellFormed merging).navigate navigating
  obtain ⟨cls, members, formalizer, partition, sides, side, known, defined, formalizes, divided, sideListed,
    onSide, refers, whole, apart⟩ := References.isWhole_iff sound matched
    (ReferentialTable.mem_recordsAt_iff.mpr ⟨reference, stored, listed⟩)
  exact ⟨analysis.typing.annotate cls, members, formalizer, partition, sides, side,
    get?_classes_model.mpr ⟨cls, known, rfl⟩, defined, formalizes, divided, sideListed, onSide, refers, whole,
    fun distinct => whole.mpr fun attr _ _ => apart distinct attr⟩

end Analysis

namespace Sample

/-- Cards draw on an account, which is identified by two numbers, by attributes of their own. -/
def cards (members : List Name) (own ignored : List Declaration.Attribute) : ModelInput :=
  { subsystems := [
      { name := "Bank"
        classes := [
          { name := "Account"
            attributes := members.map fun name =>
              { name, scalar := some "Number", identifiers := [.first] } },
          { name := "Card", attributes := own, ignoredAttributes := ignored }]
        relationships := [
          ⟨⟨"R1"⟩, .association ⟨"Card", "draws on", .many, false⟩
            ⟨"Account", "is drawn on by", .one, false⟩ none⟩] }] }

/-- Of two identifying attributes that differ only in case the one is bound to the account, so that the
other is left for the free one; and the branch is known from elsewhere. -/
def pairedCards : ModelInput :=
  cards ["Number", "number", "Branch"]
    [{ name := "Number", hints := [{ rnum := some ⟨"R1"⟩ }] },
      { name := "number", relationships := [⟨"R1"⟩] }]
    [{ name := "Branch", relationships := [⟨"R1"⟩] }]

/-- The two identifying attributes of an account differ only in case. -/
def twinCards : ModelInput :=
  cards ["Number", "number"] [{ name := "Number", relationships := [⟨"R1"⟩] }] []

end Sample

namespace Analysis

/-- Each of the free attributes of a card stands for one member, and so its record is whole though two
members have one name up to case. -/
theorem identifier_whole_pairedCards : ∃ analysis reference data cls members,
    ofInput Sample.pairedCards {} = .ok analysis ∧
    analysis.model.referential.reference? "Account" ⟨"R1"⟩ = some reference ∧ data ∈ reference.all ∧
    analysis.model.classes.get? "Account" = some cls ∧
    cls.identifiers.members? data.group = some members ∧ ¬ (members.map Text.lowercase).Nodup ∧
    data.attrMap.entries = [("Number", "Number"), ("number", "number")] ∧
    (analysis.references.ignoredBeside ⟨"R1"⟩ data).map (·.targetAttr) = ["Branch"] ∧
    analysis.references.IsWhole ⟨"R1"⟩ data members := by
  have ran : ((ofInput Sample.pairedCards {}).toOption.bind fun analysis =>
      (analysis.model.referential.reference? "Account" ⟨"R1"⟩).bind fun reference =>
      reference.all.head?.bind fun data =>
      (analysis.classes.get? data.formalizer).bind fun formalizer =>
      (Layout.ofClass formalizer).toOption.bind fun layout =>
      (layout.inclusion.get? ⟨"R1"⟩).bind fun attrs =>
      (Partition.ofAttributes analysis.classes analysis.merged.relationships formalizer layout ⟨"R1"⟩
        attrs).toOption.bind fun partition =>
      (partition.match? (layout.renamesOver ⟨"R1"⟩)).toOption.map fun sides =>
        (data.attrMap.entries, (analysis.references.ignoredBeside ⟨"R1"⟩ data).map (·.targetAttr),
          ((analysis.model.classes.get? "Account").bind (·.identifiers.members? data.group)),
          decide (∀ side ∈ sides, ∀ attr ∈ partition.free, side.StandsOnce attr))) =
      some ([("Number", "Number"), ("number", "number")], ["Branch"],
        some ["Number", "number", "Branch"], true) := by
    decide +kernel
  simp only [Option.bind_eq_some_iff, Option.map_eq_some_iff, toOption_eq_some_iff, Prod.mk.injEq,
    decide_eq_true_eq] at ran
  obtain ⟨analysis, success, reference, stored, data, first, formalizer, formalizes, layout, laid, attrs,
    entered, partition, divided, sides, matched, entries, beside, ⟨cls, known, defined⟩, once⟩ := ran
  have listed := List.mem_of_mem_head? first
  obtain ⟨other, members, card, _, _, side, same, given, formalizing, made, sideListed, _, _, whole, _⟩ :=
    identifier_whole success stored listed
  rw [known, Option.some.injEq] at same
  subst same
  rw [defined, Option.some.injEq] at given
  subst given
  rw [formalizes, Option.some.injEq] at formalizing
  subst formalizing
  obtain ⟨rfl, rfl⟩ := made.unique ⟨layout, attrs, laid, entered, divided, matched⟩
  exact ⟨analysis, reference, data, cls, _, success, stored, listed, known, defined, by decide +kernel, entries,
    beside, whole.mpr fun attr free _ => once side sideListed attr free⟩

/-- A card refers to an account with two identifying attributes by one attribute, which the record has
for the second of them only. -/
theorem identifier_not_whole_twinCards : ∃ analysis reference data cls,
    ofInput Sample.twinCards {} = .ok analysis ∧
    analysis.model.referential.reference? "Account" ⟨"R1"⟩ = some reference ∧ data ∈ reference.all ∧
    analysis.model.classes.get? "Account" = some cls ∧
    cls.identifiers.members? data.group = some ["Number", "number"] ∧
    data.attrMap.values.count "Number" +
      ((analysis.references.ignoredBeside ⟨"R1"⟩ data).map (·.targetAttr)).count "Number" = 0 ∧
    data.attrMap.size + (analysis.references.ignoredBeside ⟨"R1"⟩ data).length = 1 := by
  have ran : ((ofInput Sample.twinCards {}).toOption.bind fun analysis =>
      (analysis.model.referential.reference? "Account" ⟨"R1"⟩).bind fun reference =>
      (analysis.model.classes.get? "Account").bind fun cls =>
      reference.all.head?.map fun data =>
        (cls.identifiers.members? data.group,
          data.attrMap.values.count "Number" +
            ((analysis.references.ignoredBeside ⟨"R1"⟩ data).map (·.targetAttr)).count "Number",
          data.attrMap.size + (analysis.references.ignoredBeside ⟨"R1"⟩ data).length)) =
      some (some ["Number", "number"], 0, 1) := by
    decide +kernel
  simp only [Option.bind_eq_some_iff, Option.map_eq_some_iff, toOption_eq_some_iff, Prod.mk.injEq] at ran
  obtain ⟨analysis, success, reference, stored, cls, known, data, first, defined, absent, size⟩ := ran
  exact ⟨analysis, reference, data, cls, success, stored, List.mem_of_mem_head? first, known, defined,
    absent, size⟩

end Analysis

end ClassModel
