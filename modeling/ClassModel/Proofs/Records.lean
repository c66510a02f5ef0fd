import ClassModel.Analysis
import ClassModel.Proofs.Matches
import ClassModel.Proofs.Postings

/-! # What stands in the referential table

The shape of a relationship decides under which kinds it is recorded, whether there is one record or
one per key, which class is on a side and which class formalizes it there. Every posting of a class
agrees with the shape, and postings to one place keep agreeing with it.
-/

namespace ClassModel

namespace Shape

/-- The class on a side. -/
def classOn? : Shape → Side → Option Name
  | .association passive _ _, .passive => some passive.className
  | .association _ active _, .active => some active.className
  | .generalization superclass _, .superclass => some superclass
  | _, _ => none

/-- Whether a class formalizes the side: the association class, else the class on the opposite side,
else a subclass. -/
def IsFormalizedBy : Shape → Side → Name → Prop
  | .association _ _ (some associationClass), _, formalizer => formalizer = associationClass
  | .association _ active none, .passive, formalizer => formalizer = active.className
  | .association passive _ none, .active, formalizer => formalizer = passive.className
  | .association _ _ none, .superclass, _ => False
  | .generalization _ subclasses, _, formalizer => formalizer ∈ subclasses

/-- The kinds under which a relationship of the shape is recorded. -/
def kinds : Shape → ReferenceKind × RelationshipKind
  | .generalization _ _ => (.superclass, .generalization)
  | .association passive active (some _) =>
    if passive.className = active.className then (.associative, .binaryReflexive)
    else (.associative, .binary)
  | .association _ _ none => (.toOne, .binary)

/-- Whether there is one record per key: for generalizations, and for reflexive associations with an
association class. -/
def keepsVariants : Shape → Bool
  | .generalization _ _ => true
  | .association passive active associationClass =>
    associationClass.isSome && passive.className = active.className

end Shape

/-- The key of a record, where there are several: the formalizing class of a generalization, else the
phrase of the side. -/
def Resolved.Relationship.variantKey? (relationship : Relationship) (data : Formalization) :
    Option VariantKey :=
  match relationship.shape with
  | .generalization _ _ => some (.subclass data.formalizer)
  | .association _ _ _ => (relationship.phrase? data.side).map .phrase

/-- Whether an attribute lists or navigates a relationship. -/
def Resolved.Attribute.RefersOver (attr : Attribute) (rnum : Rnum) : Prop :=
  rnum ∈ attr.relationships ∨ ∃ navigation ∈ attr.navigations, navigation.endpoint.rnum = rnum

instance (attr : Resolved.Attribute) (rnum : Rnum) : Decidable (attr.RefersOver rnum) :=
  inferInstanceAs (Decidable (_ ∨ _))

/-- What is right about a record: the referred class is on its side of the relationship, the
formalizing class formalizes that side, the group is one of the referred class, and the attributes
map from regular attributes that refer over the relationship to members of the group. -/
structure Formalization.IsRight (classes : Table Name Resolved.Class)
    (relationship : Resolved.Relationship) (referred : Name) (data : Formalization) : Prop where
  side : relationship.shape.classOn? data.side = some referred
  formalizer : relationship.shape.IsFormalizedBy data.side data.formalizer
  identifiers : ∃ cls members, classes.get? referred = some cls ∧
    cls.identifiers.members? data.group = some members ∧
      ∀ identifier ∈ data.attrMap.values, identifier ∈ members
  attributes : ∃ cls, classes.get? data.formalizer = some cls ∧ ∀ name ∈ data.attrMap.keys,
    cls.isIgnored name = false ∧
      ∃ attr ∈ cls.attributes, attr.name = name ∧ attr.RefersOver relationship.rnum

/-- What is right about a reference: the relationship is not ordinal, the reference has the kinds of
its shape and variants where the shape keeps them, the variants ascend and stand under their own
keys, and every record is right. -/
structure Reference.IsRight (classes : Table Name Resolved.Class)
    (relationship : Resolved.Relationship) (referred : Name) (reference : Reference) : Prop where
  plain : relationship.isOrdinal = false
  kinds : (reference.kind, reference.relationshipKind) = relationship.shape.kinds
  variants : reference.hasVariants = relationship.shape.keepsVariants
  ascending : ∀ variants, reference.data = .variants variants → Variant.Ascending variants
  keys : ∀ variants, reference.data = .variants variants → ∀ variant ∈ variants,
    relationship.variantKey? variant.data = some variant.key
  records : ∀ data ∈ reference.all, data.IsRight classes relationship referred

namespace Posting

/-- What is right about a posting over a relationship. -/
structure IsRight (classes : Table Name Resolved.Class) (relationship : Resolved.Relationship)
    (posting : Posting) : Prop where
  plain : relationship.isOrdinal = false
  kinds : (posting.kind, posting.relationshipKind) = relationship.shape.kinds
  keeps : posting.key?.isSome = relationship.shape.keepsVariants
  key : ∀ key, posting.key? = some key → relationship.variantKey? posting.data = some key
  data : posting.data.IsRight classes relationship posting.referred

variable {classes : Table Name Resolved.Class} {relationship : Resolved.Relationship}

/-- The first posting to a place makes a right reference. -/
theorem IsRight.enterInto_none {posting : Posting} (right : posting.IsRight classes relationship) :
    (posting.enterInto none).IsRight classes relationship posting.referred := by
  unfold enterInto
  cases keyed : posting.key? with
  | none =>
    have keeps : relationship.shape.keepsVariants = false := by simpa [keyed] using right.keeps.symm
    refine ⟨right.plain, right.kinds, keeps.symm, ?_, ?_, ?_⟩
    · simp [Reference.enter]
    · simp [Reference.enter]
    · simpa [Reference.enter, Reference.all] using right.data
  | some key =>
    have keeps : relationship.shape.keepsVariants = true := by simpa [keyed] using right.keeps.symm
    refine ⟨right.plain, right.kinds, keeps.symm, ?_, ?_, ?_⟩
    · simp [Reference.enter, Variant.enter, Variant.Ascending]
    · simpa [Reference.enter, Variant.enter] using right.key key keyed
    · simpa [Reference.enter, Variant.enter, Reference.all] using right.data

/-- A right posting to a place with a right reference leaves it right. -/
theorem IsRight.enterInto_some {posting : Posting} (right : posting.IsRight classes relationship)
    {held : Reference} (holds : held.IsRight classes relationship posting.referred) :
    (posting.enterInto (some held)).IsRight classes relationship posting.referred := by
  obtain ⟨kind, relationshipKind, data⟩ := held
  change (Reference.enter ⟨kind, relationshipKind, data⟩ posting.key? posting.data).IsRight ..
  have keeps := right.keeps.trans holds.variants.symm
  cases data with
  | plain known =>
    have unkeyed : posting.key? = none := by simpa [Reference.hasVariants] using keeps
    rw [unkeyed]
    refine ⟨right.plain, holds.kinds, holds.variants, ?_, ?_, ?_⟩
    · simp [Reference.enter]
    · simp [Reference.enter]
    · simpa [Reference.enter, Reference.all] using right.data
  | variants variants =>
    obtain ⟨key, keyed⟩ := Option.isSome_iff_exists.mp (keeps.trans rfl)
    rw [keyed]
    refine ⟨right.plain, holds.kinds, holds.variants, ?_, ?_, ?_⟩
    · rintro _ ⟨⟩
      exact Variant.ascending_enter (holds.ascending _ rfl)
    · rintro _ ⟨⟩ variant present
      rcases Variant.mem_enter present with rfl | old
      · exact right.key key keyed
      · exact holds.keys _ rfl variant old
    · intro data present
      obtain ⟨variant, listed, rfl⟩ := List.mem_map.mp present
      rcases Variant.mem_enter listed with rfl | old
      · exact right.data
      · exact holds.records _ (List.mem_map_of_mem old)

end Posting

/-- A table filled by right postings holds right references only. -/
theorem ReferentialTable.isRight_of_postings {classes : Table Name Resolved.Class}
    {relationships : Table Rnum Resolved.Relationship} {postings : List Posting}
    (right : ∀ posting ∈ postings, ∃ relationship,
      relationships.get? posting.rnum = some relationship ∧ posting.IsRight classes relationship)
    {classNames : List Name} {referred : Name} {rnum : Rnum} {reference : Reference}
    (stored : (postings.foldl post (.ofClasses classNames)).reference? referred rnum =
      some reference) :
    ∃ relationship, relationships.get? rnum = some relationship ∧
      reference.IsRight classes relationship referred := by
  rw [reference?_foldl_post, reference?_ofClasses] at stored
  refine foldl_invariant (fun held => ∀ reference, held = some reference →
    ∃ relationship, relationships.get? rnum = some relationship ∧
      reference.IsRight classes relationship referred) (by simp) ?_ reference stored
  rintro posting listed held holds _ ⟨⟩
  obtain ⟨present, place⟩ := List.mem_filter.mp listed
  simp only [decide_eq_true_eq] at place
  obtain ⟨rfl, rfl⟩ := place
  obtain ⟨relationship, known, agrees⟩ := right posting present
  refine ⟨relationship, known, ?_⟩
  cases held with
  | none => exact agrees.enterInto_none
  | some reference =>
    obtain ⟨other, same, holds⟩ := holds reference rfl
    rw [known] at same
    cases same
    exact agrees.enterInto_some holds

namespace Resolved.Relationship

/-- Every far end that a class sees is on its side, and the class formalizes it. -/
theorem farEnds?_sound {relationship : Relationship} {className : Name} {ends : List (Side × Name)}
    (offered : relationship.farEnds? className = some ends) {far : Side × Name} (present : far ∈ ends) :
    relationship.shape.classOn? far.1 = some far.2 ∧
      relationship.shape.IsFormalizedBy far.1 className := by
  unfold farEnds? at offered
  split at offered
  · rename_i passive active associationClass shaped
    rw [shaped]
    split at offered
    · rename_i same
      cases offered
      simp only [List.mem_cons, List.not_mem_nil, or_false] at present
      obtain rfl | rfl := present <;> exact ⟨rfl, same.symm⟩
    · cases offered
  · rename_i passive active shaped
    rw [shaped]
    split at offered
    · rename_i same
      cases offered
      cases List.mem_singleton.mp present
      exact ⟨rfl, same.symm⟩
    · split at offered
      · rename_i same
        cases offered
        cases List.mem_singleton.mp present
        exact ⟨rfl, same.symm⟩
      · cases offered
  · rename_i superclass subclasses shaped
    rw [shaped]
    split at offered
    · rename_i listed
      cases offered
      cases List.mem_singleton.mp present
      exact ⟨rfl, listed⟩
    · cases offered

end Resolved.Relationship

namespace SideMatch

theorem kinds_single {sides : List SideMatch} {side : Side} {referred : Name}
    (only : [(side, referred)] = sides.map fun side => (side.side, side.referred)) :
    kinds sides = if side = .superclass then (.superclass, .generalization) else (.toOne, .binary) := by
  rcases sides with _ | ⟨first, _ | ⟨second, rest⟩⟩
  · simp at only
  · simp only [List.map_cons, List.map_nil, List.cons.injEq, Prod.mk.injEq, and_true] at only
    rw [only.1, kinds]
    simp
  · simp at only

/-- The sides of a match tell the kinds of the relationship. -/
theorem kinds_eq {relationship : Resolved.Relationship} {className : Name} {sides : List SideMatch}
    (offered : relationship.farEnds? className = some (sides.map fun side => (side.side, side.referred))) :
    kinds sides = relationship.shape.kinds := by
  unfold Resolved.Relationship.farEnds? at offered
  split at offered
  · rename_i passive active associationClass shaped
    rw [shaped]
    split at offered
    · rcases sides with _ | ⟨first, _ | ⟨second, _ | ⟨third, rest⟩⟩⟩ <;> simp at offered
      obtain ⟨⟨passiveSide, passiveClass⟩, _, activeClass⟩ := offered
      simp [kinds, Shape.kinds, ← passiveSide, passiveClass, activeClass]
    · cases offered
  · rename_i passive active shaped
    rw [shaped]
    split at offered
    · exact kinds_single (Option.some.inj offered)
    · split at offered
      · exact kinds_single (Option.some.inj offered)
      · cases offered
  · rename_i superclass subclasses shaped
    rw [shaped]
    split at offered
    · exact kinds_single (Option.some.inj offered)
    · cases offered

/-- A match has a key exactly where the shape keeps variants, and that key is the one of its record. -/
theorem key?_spec {relationships : Table Rnum Resolved.Relationship} {rnum : Rnum}
    {relationship : Resolved.Relationship} (className : Name)
    (related : relationships.get? rnum = some relationship) {found : SideMatch} {referred : Name}
    (onSide : relationship.shape.classOn? found.side = some referred) :
    (key? relationships className rnum relationship.shape.kinds.2 found).isSome =
        relationship.shape.keepsVariants ∧
      ∀ data : Formalization, data.formalizer = className → data.side = found.side →
        ∀ key, key? relationships className rnum relationship.shape.kinds.2 found = some key →
          relationship.variantKey? data = some key := by
  unfold Resolved.Relationship.variantKey?
  cases shaped : relationship.shape with
  | generalization superclass subclasses =>
    refine ⟨rfl, ?_⟩
    rintro data rfl _ _ ⟨⟩
    rfl
  | association passive active associationClass =>
    rw [shaped] at onSide
    -- only the sides of an association have a class, and those have a phrase
    have phrased : (relationship.phrase? found.side).isSome = true := by
      unfold Resolved.Relationship.phrase? Resolved.Relationship.perspective?
      rw [shaped]
      cases side : found.side <;> simp_all [Shape.classOn?]
    cases associationClass with
    | none => exact ⟨rfl, fun _ _ _ _ keyed => by cases keyed⟩
    | some associationClass =>
      by_cases same : passive.className = active.className
      · simp only [Shape.kinds, same, ↓reduceIte, key?, related, Option.bind_some,
          Option.isSome_map, Shape.keepsVariants, Option.isSome_some, Bool.true_and,
          decide_true]
        refine ⟨phrased, ?_⟩
        rintro data _ side key keyed
        rw [side]
        exact keyed
      · simp [Shape.kinds, same, key?, Shape.keepsVariants]

end SideMatch

namespace ClassMatches

variable {classes : Table Name Resolved.Class} {relationships : Table Rnum Resolved.Relationship}

theorem ofClass_eq_ok_iff {cls : Resolved.Class} {found : ClassMatches} :
    ofClass classes relationships cls = .ok found ↔ ∃ layout references choices,
      Layout.ofClass cls = .ok layout ∧
      List.Forall₂ (fun entry result => matchOver classes relationships cls layout entry = .ok result)
        layout.inclusion.entries references ∧
      List.Forall₂ (fun entry result => matchOver classes relationships cls layout entry = .ok result)
        layout.unionInclusion.entries choices ∧
      ⟨cls.name, cls.ignoredAttributes.map (·.name), references, choices⟩ = found := by
  unfold ofClass
  simp only [bind_eq_ok_iff, mapM_eq_ok_iff, Except.ok.injEq, exists_and_left]

theorem className_of_ofClass {cls : Resolved.Class} {found : ClassMatches}
    (matched : ofClass classes relationships cls = .ok found) : found.className = cls.name := by
  obtain ⟨_, _, _, _, _, _, rfl⟩ := ofClass_eq_ok_iff.mp matched
  rfl

/-- What the matches of a table of attributes have over a relationship is matched for its entry there. -/
theorem exists_matchOver {cls : Resolved.Class} {layout : Layout} {table : Table Rnum (List Name)}
    {results : List (Rnum × List SideMatch)}
    (runs : List.Forall₂ (fun entry result => matchOver classes relationships cls layout entry = .ok result)
      table.entries results) {rnum : Rnum} {sides : List SideMatch} (present : (rnum, sides) ∈ results) :
    ∃ attrs, table.get? rnum = some attrs ∧
      matchOver classes relationships cls layout (rnum, attrs) = .ok (rnum, sides) := by
  obtain ⟨⟨other, attrs⟩, listed, ran⟩ := exists_left_of_forall₂ runs present
  obtain ⟨_, _, _, same⟩ := matchOver_eq_ok_iff.mp ran
  cases same
  exact ⟨attrs, Table.get?_eq_some_iff.mpr listed, ran⟩

/-- What a class has over a relationship, formalized or of a choice, is matched there. -/
theorem exists_matchOver_of_ofClass {cls : Resolved.Class} {found : ClassMatches}
    (matched : ofClass classes relationships cls = .ok found) {rnum : Rnum} {sides : List SideMatch}
    (present : (rnum, sides) ∈ found.references ∨ (rnum, sides) ∈ found.choices) :
    ∃ layout attrs, Layout.ofClass cls = .ok layout ∧
      matchOver classes relationships cls layout (rnum, attrs) = .ok (rnum, sides) := by
  obtain ⟨layout, references, choices, laid, refers, chooses, rfl⟩ := ofClass_eq_ok_iff.mp matched
  rcases present with present | present
  · obtain ⟨attrs, _, ran⟩ := exists_matchOver refers present
    exact ⟨layout, attrs, laid, ran⟩
  · obtain ⟨attrs, _, ran⟩ := exists_matchOver chooses present
    exact ⟨layout, attrs, laid, ran⟩

/-- Every side of a complete match refers to a class of the table, by an identifier group of it. -/
theorem IsComplete.of_mem {className : Name} {rnum : Rnum} {attrs : List Name}
    {partition : Partition} {found : List SideMatch}
    (complete : IsComplete classes relationships className rnum attrs partition found)
    {side : SideMatch} (present : side ∈ found) :
    ∃ referred members, classes.get? side.referred = some referred ∧
      referred.identifiers.members? side.group = some members ∧
      (∀ identifier ∈ side.assignment.keys, identifier ∈ members) ∧
      ∀ attr ∈ side.assignment.values, attr ∈ attrs := by
  obtain ⟨source, _, _, known, ⟨members, defined, listed⟩, _, inUse⟩ :=
    exists_left_of_forall₂ complete.each present
  exact ⟨source.referred, members, known, defined, fun identifier => (listed identifier).mp,
    fun attr used => (inUse attr used).1⟩

/-- What a class refers over is not ordinal, and the match over it is complete for the attributes
that formalize it. -/
theorem references_complete (sound : WellFormed relationships classes) {cls : Resolved.Class}
    (known : classes.get? cls.name = some cls) {found : ClassMatches}
    (matched : ofClass classes relationships cls = .ok found) {rnum : Rnum} {sides : List SideMatch}
    (present : (rnum, sides) ∈ found.references) :
    rnum.isOrdinal = false ∧ ∃ attrs partition,
      IsComplete classes relationships cls.name rnum attrs partition sides ∧
      ∀ name ∈ attrs, ∃ attr ∈ cls.allAttributes, attr.name = name ∧ rnum ∈ attr.formalizes := by
  obtain ⟨layout, references, choices, laid, runs, _, rfl⟩ := ofClass_eq_ok_iff.mp matched
  obtain ⟨attrs, lists, ran⟩ := exists_matchOver runs present
  have formalizes : ∀ name ∈ attrs,
      ∃ attr ∈ cls.allAttributes, attr.name = name ∧ rnum ∈ attr.formalizes := by
    intro name inUse
    refine (Layout.mem_inclusion_iff laid).mp ?_
    rw [Layout.listedFor, lists]
    exact inUse
  obtain ⟨name, inUse⟩ := List.exists_mem_of_ne_nil attrs (Layout.inclusion_ne_nil laid lists)
  obtain ⟨attr, owned, _, refers⟩ := formalizes name inUse
  obtain ⟨partition, _, complete⟩ := isComplete_of_matchOver sound ran
  exact ⟨sound.plain_of_formalizes known owned refers, attrs, partition, complete, formalizes⟩

/-- The match over a relationship that attributes of a class choose over is complete for them. -/
theorem choices_complete (sound : WellFormed relationships classes) {cls : Resolved.Class}
    {found : ClassMatches} (matched : ofClass classes relationships cls = .ok found) {rnum : Rnum}
    {sides : List SideMatch} (present : (rnum, sides) ∈ found.choices) :
    ∃ attrs partition, IsComplete classes relationships cls.name rnum attrs partition sides ∧
      ∀ name ∈ attrs, ∃ attr ∈ cls.allAttributes, attr.name = name ∧
        rnum ∈ attr.unionRelationships := by
  obtain ⟨layout, references, choices, laid, _, runs, rfl⟩ := ofClass_eq_ok_iff.mp matched
  obtain ⟨attrs, lists, ran⟩ := exists_matchOver runs present
  obtain ⟨partition, _, complete⟩ := isComplete_of_matchOver sound ran
  refine ⟨attrs, partition, complete, fun name inUse => ?_⟩
  refine (Layout.mem_unionInclusion_iff laid).mp ?_
  rw [Layout.listedFor, lists]
  exact inUse

/-- What a record maps is a pair of the match with an attribute that is not ignored. -/
theorem assigned_of_attrMap {found : ClassMatches} {side : SideMatch} {attr identifier : Name}
    (mapped : (found.formalization side).attrMap.get? attr = some identifier) :
    side.assignment.get? identifier = some attr ∧ attr ∉ found.ignored := by
  obtain ⟨⟨_, _⟩, kept, same⟩ := List.mem_map.mp (Table.mem_of_get?_ofList mapped)
  cases same
  obtain ⟨assigned, regular⟩ := List.mem_filter.mp kept
  exact ⟨Table.get?_eq_some_iff.mpr assigned, by simpa using regular⟩

/-- Where every attribute that is not ignored stands for one member, the record of a match has all its pairs
with such attributes. -/
theorem entries_formalization_of_regular (found : ClassMatches) {side : SideMatch}
    (single : ((side.assignment.entries.filter fun entry => !found.ignored.contains entry.2).map
      (·.2)).Nodup) :
    (found.formalization side).attrMap.entries =
      (side.assignment.entries.filter fun (_, attr) => !found.ignored.contains attr).map
        fun (identifier, attr) => (attr, identifier) := by
  refine Table.entries_ofList ?_
  rw [List.map_map]
  exact single

theorem entries_formalization (found : ClassMatches) {side : SideMatch}
    (single : side.assignment.values.Nodup) :
    (found.formalization side).attrMap.entries =
      (side.assignment.entries.filter fun (_, attr) => !found.ignored.contains attr).map
        fun (identifier, attr) => (attr, identifier) :=
  found.entries_formalization_of_regular ((List.filter_sublist.map _).nodup single)

/-- The record of a match stands on a side that the class formalizes, and maps regular attributes
to members of the group. -/
theorem formalization_isRight (sound : WellFormed relationships classes) {cls : Resolved.Class}
    (known : classes.get? cls.name = some cls) {found : ClassMatches}
    (matched : ofClass classes relationships cls = .ok found) {relationship : Resolved.Relationship}
    {rnum : Rnum} (related : relationships.get? rnum = some relationship) {sides : List SideMatch}
    (present : (rnum, sides) ∈ found.references) {side : SideMatch} (listed : side ∈ sides) :
    (found.formalization side).IsRight classes relationship side.referred := by
  obtain ⟨_, attrs, partition, complete, formalizes⟩ :=
    references_complete sound known matched present
  obtain ⟨layout, references, choices, laid, _, _, rfl⟩ := ofClass_eq_ok_iff.mp matched
  obtain ⟨other, same, offered⟩ := complete.sides
  rw [related] at same
  cases same
  obtain ⟨onSide, formalizer⟩ := Resolved.Relationship.farEnds?_sound offered
    (List.mem_map_of_mem (f := fun side => (side.side, side.referred)) listed)
  obtain ⟨referred, members, present, defined, keys, values⟩ := complete.of_mem listed
  refine ⟨onSide, formalizer, ⟨referred, members, present, defined, ?_⟩, cls, known, ?_⟩
  · intro identifier mapped
    obtain ⟨attr, mapped⟩ := Table.mem_values_iff.mp mapped
    exact keys identifier (Table.mem_keys_of_get? (assigned_of_attrMap mapped).1)
  · intro name mapped
    obtain ⟨identifier, mapped⟩ := Table.mem_keys_iff.mp mapped
    obtain ⟨assigned, regular⟩ := assigned_of_attrMap mapped
    obtain ⟨attr, owned, rfl, refers⟩ :=
      formalizes name (values name (Table.mem_values_of_get? assigned))
    refine ⟨by simpa [Resolved.Class.isIgnored] using regular, attr, ?_, rfl, ?_⟩
    · refine (List.mem_append.mp owned).resolve_right fun ignored => ?_
      exact regular (List.mem_map_of_mem ignored)
    · rw [sound.rnum _ _ related]
      obtain ⟨_, navigates | ⟨lists, _⟩⟩ := Resolved.Attribute.mem_formalizes_iff.mp refers
      · exact .inr navigates
      · exact .inl lists

/-- Every posting of a class is right. -/
theorem postings_right (sound : WellFormed relationships classes) {cls : Resolved.Class}
    (known : classes.get? cls.name = some cls) {found : ClassMatches}
    (matched : ofClass classes relationships cls = .ok found) {posting : Posting}
    (present : posting ∈ found.postings relationships) : ∃ relationship,
      relationships.get? posting.rnum = some relationship ∧
      posting.IsRight classes relationship := by
  obtain ⟨⟨rnum, sides⟩, listed, posted⟩ := List.mem_flatMap.mp present
  obtain ⟨side, member, rfl⟩ := List.mem_map.mp posted
  obtain ⟨plain, attrs, partition, complete, _⟩ := references_complete sound known matched listed
  obtain ⟨relationship, related, offered⟩ := complete.sides
  have numbered := sound.rnum _ _ related
  have record := formalization_isRight sound known matched related listed member
  obtain ⟨keeps, key⟩ := SideMatch.key?_spec found.className related record.side
  rw [← SideMatch.kinds_eq offered] at keeps key
  refine ⟨relationship, related, ?_, SideMatch.kinds_eq offered, keeps, ?_, record⟩
  · rw [Resolved.Relationship.isOrdinal, numbered]
    exact plain
  · exact fun _ keyed => key _ rfl rfl _ keyed

end ClassMatches

/-- An annotated class is the class with the types that its attributes resolve to. -/
theorem Typing.annotate_eq (typing : Typing) (cls : Resolved.Class) :
    typing.annotate cls = cls.mapAttributes fun attr =>
      { attr with type := ((typing.resolution? cls.name attr.name).map (·.type)).or attr.type } := by
  unfold annotate
  congr
  funext attr
  cases typing.resolution? cls.name attr.name <;> rfl

/-- The types of attributes have no part in what is right about a record. -/
theorem Formalization.IsRight.annotate {classes : Table Name Resolved.Class}
    {relationship : Resolved.Relationship} {referred : Name} {data : Formalization}
    (right : data.IsRight classes relationship referred) (typing : Typing) :
    data.IsRight (classes.mapValues fun _ cls => typing.annotate cls) relationship referred := by
  obtain ⟨target, members, present, defined, values⟩ := right.identifiers
  obtain ⟨cls, known, keys⟩ := right.attributes
  refine ⟨right.side, right.formalizer, ⟨typing.annotate target, members, ?_, defined, values⟩,
    typing.annotate cls, ?_, ?_⟩
  · rw [Table.get?_mapValues, present, Option.map_some]
  · rw [Table.get?_mapValues, known, Option.map_some]
  · intro name mapped
    obtain ⟨regular, attr, owned, named, refers⟩ := keys name mapped
    rw [Typing.annotate_eq]
    refine ⟨?_, _, List.mem_map_of_mem owned, named, refers⟩
    rw [← regular, Resolved.Class.isIgnored, Resolved.Class.isIgnored]
    exact List.any_map

namespace References

/-- The references of a model are those of the matches of its classes. -/
theorem ofClasses_eq_ok_iff {relationships : Table Rnum Resolved.Relationship}
    {classes : Table Name Resolved.Class} {references : References} :
    ofClasses relationships classes = .ok references ↔ ∃ found,
      List.Forall₂ (fun cls found => ClassMatches.ofClass classes relationships cls = .ok found)
        classes.values found ∧
      ofMatches relationships classes.keys found = references := by
  unfold ofClasses
  simp only [bind_eq_ok_iff, mapM_eq_ok_iff, Except.ok.injEq]

/-- The matches of a model are those of classes of its table. -/
theorem exists_class {relationships : Table Rnum Resolved.Relationship}
    {classes : Table Name Resolved.Class} (sound : WellFormed relationships classes)
    {found : List ClassMatches}
    (runs : List.Forall₂ (fun cls found => ClassMatches.ofClass classes relationships cls = .ok found)
      classes.values found) {matching : ClassMatches} (listed : matching ∈ found) :
    ∃ cls, classes.get? cls.name = some cls ∧
      ClassMatches.ofClass classes relationships cls = .ok matching := by
  obtain ⟨cls, present, matched⟩ := exists_left_of_forall₂ runs listed
  obtain ⟨name, known⟩ := Table.mem_values_iff.mp present
  exact ⟨cls, (sound.className _ _ known).symm ▸ known, matched⟩

/-- Every posting of every class is right. -/
theorem postings_right {relationships : Table Rnum Resolved.Relationship}
    {classes : Table Name Resolved.Class} (sound : WellFormed relationships classes)
    {found : List ClassMatches}
    (runs : List.Forall₂ (fun cls found => ClassMatches.ofClass classes relationships cls = .ok found)
      classes.values found) {matching : ClassMatches} (listed : matching ∈ found) {posting : Posting}
    (posted : posting ∈ matching.postings relationships) : ∃ relationship,
      relationships.get? posting.rnum = some relationship ∧
      posting.IsRight classes relationship := by
  obtain ⟨cls, known, ran⟩ := exists_class sound runs listed
  exact ClassMatches.postings_right sound known ran posted

/-- Every reference recorded over well-formed tables is right. -/
theorem reference_isRight {relationships : Table Rnum Resolved.Relationship}
    {classes : Table Name Resolved.Class} (sound : WellFormed relationships classes)
    {references : References} (success : ofClasses relationships classes = .ok references)
    {referred : Name} {rnum : Rnum} {reference : Reference}
    (stored : references.referential.reference? referred rnum = some reference) :
    ∃ relationship, relationships.get? rnum = some relationship ∧
      reference.IsRight classes relationship referred := by
  obtain ⟨found, runs, rfl⟩ := ofClasses_eq_ok_iff.mp success
  rw [referential_ofMatches] at stored
  refine ReferentialTable.isRight_of_postings (fun posting posted => ?_) stored
  obtain ⟨matching, listed, posted⟩ := List.mem_flatMap.mp posted
  exact postings_right sound runs listed posted

end References

namespace Analysis

/-- An analysis is the run of its parts. -/
theorem ofInput_eq_ok_iff {input : ModelInput} {options : AnalysisOptions} {analysis : Analysis} :
    ofInput input options = .ok analysis ↔
      Merged.ofInput input options = .ok analysis.merged ∧
      navigateClasses analysis.merged.relationships analysis.merged.classes = .ok analysis.classes ∧
      References.ofClasses analysis.merged.relationships analysis.classes = .ok analysis.references ∧
      ordinalTable analysis.merged.relationships analysis.classes = .ok analysis.ordinals ∧
      Typing.ofReferences analysis.classes analysis.references = .ok analysis.typing ∧
      analysis.typing.typeTable analysis.classes.values = .ok analysis.types ∧
      input.stateModels.mapM (Declaration.StateModel.resolve analysis.merged.classes
        analysis.merged.relationships) = .ok analysis.stateModels := by
  obtain ⟨merged, classes, references, ordinals, typing, types, stateModels⟩ := analysis
  unfold ofInput
  simp only [bind_eq_ok_iff, Except.ok.injEq, mk.injEq]
  constructor
  · rintro ⟨_, merging, _, navigating, _, matched, _, ranked, _, typed, _, tabled, _, modelled,
      rfl, rfl, rfl, rfl, rfl, rfl, rfl⟩
    exact ⟨merging, navigating, matched, ranked, typed, tabled, modelled⟩
  · rintro ⟨merging, navigating, matched, ranked, typed, tabled, modelled⟩
    exact ⟨_, merging, _, navigating, _, matched, _, ranked, _, typed, _, tabled, _, modelled,
      rfl, rfl, rfl, rfl, rfl, rfl, rfl⟩

end Analysis

theorem analyze_eq_ok_iff {input : ModelInput} {options : AnalysisOptions} {model : Model} :
    analyze input options = .ok model ↔
      ∃ analysis, Analysis.ofInput input options = .ok analysis ∧ analysis.model = model :=
  map_eq_ok_iff

namespace Model

/-- Every reference that an analysis records is right: its relationship is in the model and is not
ordinal, and the reference and all its records agree with the shape of the relationship. -/
theorem reference_right {input : ModelInput} {options : AnalysisOptions} {model : Model}
    (success : analyze input options = .ok model) {referred : Name} {rnum : Rnum}
    {reference : Reference} (stored : model.referential.reference? referred rnum = some reference) :
    ∃ relationship, model.relationships.get? rnum = some relationship ∧ relationship.rnum = rnum ∧
      reference.IsRight model.classes relationship referred := by
  obtain ⟨analysis, ran, rfl⟩ := analyze_eq_ok_iff.mp success
  obtain ⟨merging, navigating, matched, _⟩ := Analysis.ofInput_eq_ok_iff.mp ran
  have sound := (Merged.wellFormed merging).navigate navigating
  obtain ⟨relationship, related, right⟩ := References.reference_isRight sound matched stored
  exact ⟨relationship, related, sound.rnum _ _ related, right.plain, right.kinds, right.variants,
    right.ascending, right.keys, fun data listed => (right.records data listed).annotate analysis.typing⟩

/-- The mentoring class formalizes both sides of its reflexive association, one record per phrase. -/
theorem reference_right_staff : ∃ model reference relationship,
    analyze Sample.staff = .ok model ∧
    model.referential.reference? "Employee" ⟨"R1"⟩ = some reference ∧
    reference.variantKeys = [.phrase "learns from", .phrase "mentors"] ∧
    model.relationships.get? ⟨"R1"⟩ = some relationship ∧ relationship.rnum = ⟨"R1"⟩ ∧
    reference.IsRight model.classes relationship "Employee" := by
  have ran : ((analyze Sample.staff).toOption.bind fun model =>
      (model.referential.reference? "Employee" ⟨"R1"⟩).map (·.variantKeys)) =
      some [.phrase "learns from", .phrase "mentors"] := by
    decide +kernel
  simp only [Option.bind_eq_some_iff, Option.map_eq_some_iff, toOption_eq_some_iff] at ran
  obtain ⟨model, success, reference, stored, keys⟩ := ran
  obtain ⟨relationship, related, numbered, right⟩ := reference_right success stored
  exact ⟨model, reference, relationship, success, stored, keys, related, numbered, right⟩

end Model

end ClassModel
