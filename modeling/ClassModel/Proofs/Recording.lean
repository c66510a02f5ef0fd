import ClassModel.Proofs.Lasting

/-! # What is recorded of a class

A class posts one record for each side that it refers to. Records of different classes never have one
key, so a record can only be lost between the two sides of one class: the sides of a reflexive
association with an association class go by their phrases, and where both have the same phrase the
active side takes the place of the passive one. Everything else that a class formalizes is recorded
once.
-/

namespace ClassModel

/-- A search that only one item of a list answers finds what it answers. -/
theorem filter_flatMap_of_only {α β : Type} {items : List α} {view : α → List β} {keep : β → Bool}
    {item : α} (distinct : items.Nodup) (present : item ∈ items)
    (only : ∀ other ∈ items, other ≠ item → (view other).filter keep = []) :
    (items.flatMap view).filter keep = (view item).filter keep := by
  obtain ⟨before, after, rfl⟩ := List.append_of_mem present
  have apart := List.nodup_middle.mp distinct
  have nothing : ∀ others : List α, others ⊆ before ++ after →
      others.flatMap (fun other => (view other).filter keep) = [] := by
    intro others among
    refine List.flatMap_eq_nil_iff.mpr fun other listed => only other ?_ ?_
    · simpa [or_left_comm] using .inr (List.mem_append.mp (among listed))
    · rintro rfl
      exact (List.nodup_cons.mp apart).1 (among listed)
  rw [List.filter_flatMap, List.flatMap_append, List.flatMap_cons,
    nothing before (List.subset_append_left ..), nothing after (List.subset_append_right ..),
    List.nil_append, List.append_nil]

section Places

variable {classes : Table Name Resolved.Class} {relationships : Table Rnum Resolved.Relationship}
  {found : List ClassMatches}

/-- The record of one side of a match over a relationship. -/
def ClassMatches.posting (relationships : Table Rnum Resolved.Relationship) (found : ClassMatches)
    (rnum : Rnum) (sides : List SideMatch) (side : SideMatch) : Posting where
  referred := side.referred
  rnum := rnum
  kind := (SideMatch.kinds sides).1
  relationshipKind := (SideMatch.kinds sides).2
  key? := side.key? relationships found.className rnum (SideMatch.kinds sides).2
  data := found.formalization side

/-- The matches of a class are those of the relationships that its layout lists, in that order. -/
theorem ClassMatches.map_references {cls : Resolved.Class} {found : ClassMatches}
    (matched : ofClass classes relationships cls = .ok found) :
    ∃ layout, Layout.ofClass cls = .ok layout ∧ found.references.map (·.1) = layout.inclusion.keys := by
  obtain ⟨layout, references, choices, laid, runs, _, rfl⟩ := ofClass_eq_ok_iff.mp matched
  refine ⟨layout, laid, map_eq_of_forall₂ runs fun entry result ran => ?_⟩
  obtain ⟨_, _, _, same⟩ := matchOver_eq_ok_iff.mp ran
  exact same

/-- Each relationship that a class formalizes is matched once. -/
theorem ClassMatches.nodup_references {cls : Resolved.Class} {found : ClassMatches}
    (matched : ofClass classes relationships cls = .ok found) : (found.references.map (·.1)).Nodup := by
  obtain ⟨layout, _, numbers⟩ := map_references matched
  rw [numbers]
  exact layout.inclusion.keys_nodup

/-- A class is matched over the relationships that some attribute of it formalizes. -/
theorem ClassMatches.exists_mem_references_iff {cls : Resolved.Class} {found : ClassMatches}
    (matched : ofClass classes relationships cls = .ok found) {rnum : Rnum} :
    (∃ sides, (rnum, sides) ∈ found.references) ↔ ∃ attr ∈ cls.allAttributes, rnum ∈ attr.formalizes := by
  obtain ⟨layout, laid, numbers⟩ := map_references matched
  have listed : (∃ sides, (rnum, sides) ∈ found.references) ↔ rnum ∈ layout.inclusion.keys := by
    rw [← numbers]
    simp
  rw [listed, Table.mem_keys_iff]
  constructor
  · rintro ⟨attrs, held⟩
    obtain ⟨name, member⟩ := List.exists_mem_of_ne_nil attrs (Layout.inclusion_ne_nil laid held)
    obtain ⟨attr, owned, _, formalizes⟩ :=
      (Layout.mem_inclusion_iff laid).mp (by rwa [Layout.listedFor, held] : name ∈ _)
    exact ⟨attr, owned, formalizes⟩
  · rintro ⟨attr, owned, formalizes⟩
    have member := (Layout.mem_inclusion_iff laid).mpr ⟨attr, owned, rfl, formalizes⟩
    cases held : layout.inclusion.get? rnum with
    | none => simp [Layout.listedFor, held] at member
    | some attrs => exact ⟨attrs, rfl⟩

/-- A class posts over a relationship the sides of its match. -/
theorem ClassMatches.filter_postings {cls : Resolved.Class} {found : ClassMatches}
    (matched : ofClass classes relationships cls = .ok found) {rnum : Rnum} {sides : List SideMatch}
    (present : (rnum, sides) ∈ found.references) (referred : Name) :
    (found.postings relationships).filter
        (fun posting => posting.referred = referred ∧ posting.rnum = rnum) =
      (sides.filter (·.referred = referred)).map (found.posting relationships rnum sides) := by
  have distinct := nodup_references matched
  unfold postings
  rw [filter_flatMap_of_only (List.Nodup.of_map _ distinct) present, List.filter_map]
  · refine congrArg _ (List.filter_congr fun side _ => ?_)
    simp
  · intro other listed different
    refine List.filter_eq_nil_iff.mpr fun posting posted => ?_
    obtain ⟨side, _, rfl⟩ := List.mem_map.mp posted
    have apart : other.1 ≠ rnum :=
      fun same => different (List.inj_on_of_nodup_map distinct listed present same)
    simp [apart]

/-- Postings of one key in one place are of one class. -/
theorem References.formalizer_eq_of_key (sound : WellFormed relationships classes)
    (runs : List.Forall₂ (fun cls found => ClassMatches.ofClass classes relationships cls = .ok found)
      classes.values found) {referred : Name} {rnum : Rnum} {first second : Posting}
    (firstListed : first ∈ postingsAt relationships found referred rnum)
    (secondListed : second ∈ postingsAt relationships found referred rnum)
    (same : first.key? = second.key?) : first.data.formalizer = second.data.formalizer := by
  obtain ⟨⟨one, oneListed, onePosted⟩, firstReferred, firstRnum⟩ := mem_postingsAt_iff.mp firstListed
  obtain ⟨⟨two, twoListed, twoPosted⟩, secondReferred, secondRnum⟩ := mem_postingsAt_iff.mp secondListed
  obtain ⟨relationship, related, right⟩ := postings_right sound runs oneListed onePosted
  obtain ⟨other, known, alsoRight⟩ := postings_right sound runs twoListed twoPosted
  rw [secondRnum, ← firstRnum, related] at known
  cases known
  by_contra different
  obtain ⟨_, _, firstKey, secondKey, apart⟩ :=
    right.keys_apart alsoRight (firstReferred.trans secondReferred.symm) different
  rw [firstKey, secondKey] at same
  exact apart (Option.some.inj same)

/-- The records of a class over a relationship that it formalizes are what lasts of its match. -/
theorem References.recordsOf_perm (sound : WellFormed relationships classes)
    (runs : List.Forall₂ (fun cls found => ClassMatches.ofClass classes relationships cls = .ok found)
      classes.values found) {matching : ClassMatches} (listed : matching ∈ found) {rnum : Rnum}
    {sides : List SideMatch} (present : (rnum, sides) ∈ matching.references) (referred : Name)
    (side : Side) :
    ((ofMatches relationships classes.keys found).referential.recordsOf referred rnum
        matching.className side).Perm
      (((Posting.lasting ((sides.filter (·.referred = referred)).map
        (matching.posting relationships rnum sides))).map (·.data)).filter (·.side = side)) := by
  obtain ⟨cls, _, matched⟩ := exists_left_of_forall₂ runs listed
  have distinct := ClassMatches.nodup_classNames sound runs
  have own : (postingsAt relationships found referred rnum).filter
        (·.data.formalizer = matching.className) =
      (sides.filter (·.referred = referred)).map (matching.posting relationships rnum sides) := by
    rw [← ClassMatches.filter_postings matched present, postingsAt, List.filter_comm,
      filter_flatMap_of_only (List.Nodup.of_map _ distinct) listed]
    · refine congrArg _ (List.filter_eq_self.mpr fun posting posted => ?_)
      exact decide_eq_true (ClassMatches.formalizer_of_mem_postings posted)
    · intro other member different
      refine List.filter_eq_nil_iff.mpr fun posting posted => ?_
      rw [decide_eq_true_eq, ClassMatches.formalizer_of_mem_postings posted]
      exact fun same => different (List.inj_on_of_nodup_map distinct member listed same)
  refine ((recordsAt_perm sound runs referred rnum).filter _).trans (.of_eq ?_)
  rw [← own, Posting.lasting_filter, List.filter_map, List.filter_map, List.filter_filter]
  · refine congrArg _ (List.filter_congr fun posting _ => ?_)
    simp [Bool.and_comm]
  · intro first firstListed second secondListed same
    rw [formalizer_eq_of_key sound runs firstListed secondListed same]

end Places

/-- Whether the record of a side gives way to that of the other side: the association class of a
reflexive association refers to both sides under their phrases, and enters the active side last. -/
def Shape.isOverwritten : Shape → Side → Bool
  | .association passive active (some _), .passive =>
    passive.className = active.className && passive.phrase = active.phrase
  | _, _ => false

namespace ClassMatches

variable {relationships : Table Rnum Resolved.Relationship} {relationship : Resolved.Relationship}
  {rnum : Rnum}

theorem formalization_side (found : ClassMatches) (side : SideMatch) :
    (found.formalization side).side = side.side := rfl

theorem lasting_single (found : ClassMatches) {sides : List SideMatch} {far : Side} {referred : Name}
    (only : [(far, referred)] = sides.map fun side => (side.side, side.referred)) {side : SideMatch}
    (listed : side ∈ sides) :
    ((Posting.lasting ((sides.filter (·.referred = side.referred)).map
      (found.posting relationships rnum sides))).map (·.data)).filter (·.side = side.side) =
        [found.formalization side] := by
  obtain ⟨single, rfl, _⟩ := List.map_eq_singleton_iff.mp only.symm
  obtain rfl := List.mem_singleton.mp listed
  simp [Posting.lasting, posting, formalization]

/-- Of two sides in one place the passive one is overwritten where both go by one phrase. -/
theorem lasting_both (found : ClassMatches) (related : relationships.get? rnum = some relationship)
    {passive active : Perspective} {associationClass : Name}
    (shaped : relationship.shape = .association passive active (some associationClass))
    {first second : SideMatch} (kinds : SideMatch.kinds [first, second] = relationship.shape.kinds)
    (firstSide : first.side = .passive) (firstClass : first.referred = passive.className)
    (secondSide : second.side = .active) (secondClass : second.referred = active.className)
    {side : SideMatch} (listed : side = first ∨ side = second) :
    ((Posting.lasting (([first, second].filter (·.referred = side.referred)).map
      (found.posting relationships rnum [first, second]))).map (·.data)).filter (·.side = side.side) =
        if relationship.shape.isOverwritten side.side then [] else [found.formalization side] := by
  rw [shaped] at kinds ⊢
  by_cases reflexive : passive.className = active.className
  · -- both records stand in one place, each under the phrase of its side
    have firstKey : (found.posting relationships rnum [first, second] first).key? =
        some (.phrase passive.phrase) := by
      simp [posting, kinds, shaped, Shape.kinds, reflexive, SideMatch.key?, related,
        Resolved.Relationship.phrase?, Resolved.Relationship.perspective?, firstSide]
    have secondKey : (found.posting relationships rnum [first, second] second).key? =
        some (.phrase active.phrase) := by
      simp [posting, kinds, shaped, Shape.kinds, reflexive, SideMatch.key?, related,
        Resolved.Relationship.phrase?, Resolved.Relationship.perspective?, secondSide]
    have both : [first, second].filter (·.referred = side.referred) = [first, second] := by
      rcases listed with rfl | rfl <;> simp [firstClass, secondClass, reflexive]
    have last : (Posting.lasting ([first, second].map
          (found.posting relationships rnum [first, second]))).map (·.data) =
        if passive.phrase = active.phrase then [found.formalization second]
        else [found.formalization first, found.formalization second] := by
      rw [List.map_cons, List.map_cons, List.map_nil, Posting.lasting_pair, firstKey, secondKey]
      simp only [Option.some_inj, VariantKey.phrase.injEq, eq_comm]
      split <;> rfl
    rw [both, last]
    rcases listed with rfl | rfl
    · rw [firstSide]
      by_cases phrases : passive.phrase = active.phrase <;>
        simp [phrases, reflexive, Shape.isOverwritten, formalization_side, firstSide, secondSide]
    · rw [secondSide]
      by_cases phrases : passive.phrase = active.phrase <;>
        simp [phrases, Shape.isOverwritten, formalization_side, firstSide, secondSide]
  · -- each record stands in a place of its own
    rcases listed with rfl | rfl <;>
      simp [Posting.lasting, firstSide, secondSide, firstClass, secondClass, reflexive, Ne.symm reflexive,
        Shape.isOverwritten, posting, formalization_side]

/-- The record of a side of a match lasts unless it is overwritten. -/
theorem lasting_side (found : ClassMatches) (related : relationships.get? rnum = some relationship)
    {sides : List SideMatch}
    (offered : relationship.farEnds? found.className =
      some (sides.map fun side => (side.side, side.referred))) {side : SideMatch} (listed : side ∈ sides) :
    ((Posting.lasting ((sides.filter (·.referred = side.referred)).map
      (found.posting relationships rnum sides))).map (·.data)).filter (·.side = side.side) =
        if relationship.shape.isOverwritten side.side then [] else [found.formalization side] := by
  have kinds := SideMatch.kinds_eq offered
  unfold Resolved.Relationship.farEnds? at offered
  split at offered
  · rename_i passive active associationClass shaped
    split at offered
    · rcases sides with _ | ⟨first, _ | ⟨second, _ | ⟨third, rest⟩⟩⟩ <;> simp at offered
      obtain ⟨⟨passiveSide, passiveClass⟩, activeSide, activeClass⟩ := offered
      exact lasting_both found related shaped kinds passiveSide.symm passiveClass.symm activeSide.symm
        activeClass.symm (List.mem_pair.mp listed)
    · cases offered
  · rename_i passive active shaped
    rw [shaped]
    split at offered
    · exact lasting_single found (Option.some.inj offered) listed
    · split at offered
      · exact lasting_single found (Option.some.inj offered) listed
      · cases offered
  · rename_i superclass subclasses shaped
    rw [shaped]
    split at offered
    · exact lasting_single found (Option.some.inj offered) listed
    · cases offered

end ClassMatches

namespace References

variable {relationships : Table Rnum Resolved.Relationship} {classes : Table Name Resolved.Class}

/-- The matches of a class of the table are among those of all classes. -/
theorem exists_matching {found : List ClassMatches}
    (runs : List.Forall₂ (fun cls found => ClassMatches.ofClass classes relationships cls = .ok found)
      classes.values found) {cls : Resolved.Class} (known : classes.get? cls.name = some cls) :
    ∃ matching ∈ found, ClassMatches.ofClass classes relationships cls = .ok matching :=
  exists_left_of_forall₂ runs.flip (Table.mem_values_of_get? known)

/-- Over a relationship that a class formalizes, each side that it refers to has one record of the
class, but for a side that is overwritten, which has none. -/
theorem recordsOf_of_formalizes (sound : WellFormed relationships classes) {references : References}
    (success : ofClasses relationships classes = .ok references) {cls : Resolved.Class}
    (known : classes.get? cls.name = some cls) {rnum : Rnum} {attr : Resolved.Attribute}
    (owned : attr ∈ cls.allAttributes) (formalizes : rnum ∈ attr.formalizes) :
    ∃ relationship ends, relationships.get? rnum = some relationship ∧
      relationship.farEnds? cls.name = some ends ∧ ∀ far ∈ ends,
        if relationship.shape.isOverwritten far.1 then
          references.referential.recordsOf far.2 rnum cls.name far.1 = []
        else ∃ data, references.referential.recordsOf far.2 rnum cls.name far.1 = [data] := by
  obtain ⟨found, runs, rfl⟩ := ofClasses_eq_ok_iff.mp success
  obtain ⟨matching, listed, matched⟩ := exists_matching runs known
  obtain ⟨sides, present⟩ :=
    (ClassMatches.exists_mem_references_iff matched).mpr ⟨attr, owned, formalizes⟩
  obtain ⟨_, _, _, complete, _⟩ := ClassMatches.references_complete sound known matched present
  obtain ⟨relationship, related, offered⟩ := complete.sides
  refine ⟨relationship, _, related, offered, fun far member => ?_⟩
  obtain ⟨side, sideListed, rfl⟩ := List.mem_map.mp member
  rw [← ClassMatches.className_of_ofClass matched] at offered ⊢
  have records := recordsOf_perm sound runs listed present side.referred side.side
  rw [matching.lasting_side related offered sideListed] at records
  split
  · rename_i overwritten
    rw [if_pos overwritten] at records
    exact records.eq_nil
  · rename_i lasts
    rw [if_neg lasts] at records
    exact ⟨_, records.eq_singleton⟩

/-- Over a relationship that no attribute of a class formalizes, the class has no records. -/
theorem formalizer_ne_of_not_formalizes (sound : WellFormed relationships classes)
    {references : References} (success : ofClasses relationships classes = .ok references)
    {cls : Resolved.Class} (known : classes.get? cls.name = some cls) {rnum : Rnum}
    (unused : ∀ attr ∈ cls.allAttributes, rnum ∉ attr.formalizes) {referred : Name}
    {data : Formalization} (recorded : data ∈ references.referential.recordsAt referred rnum) :
    data.formalizer ≠ cls.name := by
  obtain ⟨found, runs, rfl⟩ := ofClasses_eq_ok_iff.mp success
  obtain ⟨matching, listed, matched⟩ := exists_matching runs known
  intro formalizer
  obtain ⟨other, member, sides, present, side, _, _, rfl⟩ := exists_of_mem_recordsAt sound runs recorded
  obtain rfl := List.inj_on_of_nodup_map (ClassMatches.nodup_classNames sound runs) member listed
    (formalizer.trans (ClassMatches.className_of_ofClass matched).symm)
  obtain ⟨attr, owned, formalizes⟩ :=
    (ClassMatches.exists_mem_references_iff matched).mp ⟨sides, present⟩
  exact unused attr owned formalizes

end References

theorem Resolved.Class.allAttributes_mapAttributes (cls : Class) (change : Attribute → Attribute) :
    (cls.mapAttributes change).allAttributes = cls.allAttributes.map change :=
  (List.map_append ..).symm

/-- The attributes of an annotated class differ from those of the class in their types only. -/
theorem Typing.mem_allAttributes_annotate_iff {typing : Typing} {cls : Resolved.Class}
    {attr : Resolved.Attribute} :
    attr ∈ (typing.annotate cls).allAttributes ↔ ∃ original ∈ cls.allAttributes, { original with
      type := ((typing.resolution? cls.name original.name).map (·.type)).or original.type } = attr := by
  rw [annotate_eq, Resolved.Class.allAttributes_mapAttributes, List.mem_map]

/-- The classes of a model are the annotated ones. -/
theorem Analysis.get?_classes_model {analysis : Analysis} {name : Name} {cls : Resolved.Class} :
    analysis.model.classes.get? name = some cls ↔
      ∃ original, analysis.classes.get? name = some original ∧ analysis.typing.annotate original = cls := by
  rw [model, Table.get?_mapValues, Option.map_eq_some_iff]

namespace Model

/-- Over a relationship that an attribute of a class lists or navigates, and does not only choose over,
each side that the class refers to has one record of the class; only where an association class refers
to one class twice under one phrase, the passive side has none. Over a relationship that its attributes
only choose over, the class has no record. -/
theorem formalizations_recorded {input : ModelInput} {options : AnalysisOptions} {model : Model}
    (success : analyze input options = .ok model) {className : Name} {cls : Resolved.Class}
    (known : model.classes.get? className = some cls) (rnum : Rnum) :
    ((∃ attr ∈ cls.allAttributes, attr.RefersOver rnum ∧ rnum ∉ attr.unionRelationships) →
      rnum.isOrdinal = false →
      ∃ relationship ends, model.relationships.get? rnum = some relationship ∧
        relationship.farEnds? className = some ends ∧ ∀ far ∈ ends,
          if relationship.shape.isOverwritten far.1 then
            model.referential.recordsOf far.2 rnum className far.1 = []
          else ∃ data, model.referential.recordsOf far.2 rnum className far.1 = [data]) ∧
    ((∀ attr ∈ cls.allAttributes, attr.RefersOver rnum → rnum ∈ attr.unionRelationships) →
      ∀ referred, ∀ data ∈ model.referential.recordsAt referred rnum, data.formalizer ≠ className) := by
  obtain ⟨analysis, ran, rfl⟩ := analyze_eq_ok_iff.mp success
  obtain ⟨merging, navigating, matched, _⟩ := Analysis.ofInput_eq_ok_iff.mp ran
  have sound := (Merged.wellFormed merging).navigate navigating
  obtain ⟨original, found, rfl⟩ := Analysis.get?_classes_model.mp known
  obtain rfl := sound.className _ _ found
  constructor
  · rintro ⟨_, owned, refers, only⟩ plain
    obtain ⟨attr, original, rfl⟩ := Typing.mem_allAttributes_annotate_iff.mp owned
    refine References.recordsOf_of_formalizes sound matched found original ?_
    refine Resolved.Attribute.mem_formalizes_iff.mpr ⟨?_, ?_⟩
    · simpa [Resolved.Attribute.isUnionOver] using only
    · exact refers.elim (fun lists => .inr ⟨lists, plain⟩) .inl
  · intro only referred data recorded
    refine References.formalizer_ne_of_not_formalizes sound matched found (fun attr owned formalizes => ?_)
      recorded
    obtain ⟨notUnion, refers⟩ := Resolved.Attribute.mem_formalizes_iff.mp formalizes
    have union := only _ (Typing.mem_allAttributes_annotate_iff.mpr ⟨attr, owned, rfl⟩)
      (refers.elim .inr fun lists => .inl lists.1)
    simp [Resolved.Attribute.isUnionOver, union] at notUnion

/-- The mentoring class has one record for whoever mentors and one for whoever learns. -/
theorem formalizations_recorded_staff : ∃ model cls mentor pupil,
    analyze Sample.staff = .ok model ∧ model.classes.get? "Mentoring" = some cls ∧
    (∃ attr ∈ cls.allAttributes, attr.RefersOver ⟨"R1"⟩ ∧ ⟨"R1"⟩ ∉ attr.unionRelationships) ∧
    model.referential.recordsOf "Employee" ⟨"R1"⟩ "Mentoring" .passive = [mentor] ∧
    model.referential.recordsOf "Employee" ⟨"R1"⟩ "Mentoring" .active = [pupil] := by
  have ran : ((analyze Sample.staff).toOption.bind fun model =>
      (model.classes.get? "Mentoring").bind fun cls =>
      (model.relationships.get? ⟨"R1"⟩).map fun relationship =>
        (decide (∃ attr ∈ cls.allAttributes, attr.RefersOver ⟨"R1"⟩ ∧ ⟨"R1"⟩ ∉ attr.unionRelationships),
        relationship.farEnds? "Mentoring", relationship.shape.isOverwritten .passive,
        relationship.shape.isOverwritten .active)) =
      some (true, some [(.passive, "Employee"), (.active, "Employee")], false, false) := by
    decide +kernel
  simp only [Option.bind_eq_some_iff, Option.map_eq_some_iff, toOption_eq_some_iff, Prod.mk.injEq] at ran
  obtain ⟨model, success, cls, known, relationship, related, lists, offered, passive, active⟩ := ran
  have refers := of_decide_eq_true lists
  obtain ⟨other, ends, same, seen, records⟩ :=
    (formalizations_recorded success known ⟨"R1"⟩).1 refers (by decide)
  rw [related] at same
  cases same
  rw [offered] at seen
  cases seen
  have mentor := records (.passive, "Employee") (by simp)
  have pupil := records (.active, "Employee") (by simp)
  rw [passive, if_neg Bool.false_ne_true] at mentor
  rw [active, if_neg Bool.false_ne_true] at pupil
  obtain ⟨mentor, one⟩ := mentor
  obtain ⟨pupil, two⟩ := pupil
  exact ⟨model, cls, mentor, pupil, success, known, refers, one, two⟩

end Model

namespace Sample

/-- Persons marry each other, and the relationship reads the same from both sides. -/
def couples : ModelInput :=
  { subsystems := [
      { name := "Registry"
        classes := [
          { name := "Person"
            attributes := [{ name := "ID", scalar := some "Number", identifiers := [.first] }] },
          { name := "Marriage"
            attributes := [{ name := "ID", relationships := [⟨"R1"⟩] }] }]
        relationships := [
          ⟨⟨"R1"⟩, .association ⟨"Person", "is married to", .one, false⟩
            ⟨"Person", "is married to", .one, false⟩ (some "Marriage")⟩] }] }

end Sample

namespace Model

/-- Of the two sides that a marriage refers to only the active one is recorded. -/
theorem formalization_lost_couples : ∃ model cls relationship,
    analyze Sample.couples = .ok model ∧ model.classes.get? "Marriage" = some cls ∧
    (∃ attr ∈ cls.allAttributes, attr.RefersOver ⟨"R1"⟩ ∧ ⟨"R1"⟩ ∉ attr.unionRelationships) ∧
    model.relationships.get? ⟨"R1"⟩ = some relationship ∧
    relationship.farEnds? "Marriage" = some [(.passive, "Person"), (.active, "Person")] ∧
    model.referential.recordsOf "Person" ⟨"R1"⟩ "Marriage" .passive = [] ∧
    (model.referential.recordsOf "Person" ⟨"R1"⟩ "Marriage" .active).length = 1 := by
  have ran : ((analyze Sample.couples).toOption.bind fun model =>
      (model.classes.get? "Marriage").bind fun cls =>
      (model.relationships.get? ⟨"R1"⟩).map fun relationship =>
        (decide (∃ attr ∈ cls.allAttributes, attr.RefersOver ⟨"R1"⟩ ∧ ⟨"R1"⟩ ∉ attr.unionRelationships),
        relationship.farEnds? "Marriage",
        (model.referential.recordsOf "Person" ⟨"R1"⟩ "Marriage" .passive).length,
        (model.referential.recordsOf "Person" ⟨"R1"⟩ "Marriage" .active).length)) =
      some (true, some [(.passive, "Person"), (.active, "Person")], 0, 1) := by
    decide +kernel
  simp only [Option.bind_eq_some_iff, Option.map_eq_some_iff, toOption_eq_some_iff, Prod.mk.injEq] at ran
  obtain ⟨model, success, cls, known, relationship, related, lists, offered, passive, active⟩ := ran
  exact ⟨model, cls, relationship, success, known, of_decide_eq_true lists, related, offered,
    List.length_eq_zero_iff.mp passive, active⟩

end Model

end ClassModel
