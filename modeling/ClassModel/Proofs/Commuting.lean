import ClassModel.Proofs.Records
import ClassModel.Proofs.Renumbering

/-! # References in any order of the classes

Two classes that post to one place of the referential table are subclasses of one generalization, and
their records stand under different keys. So the postings of different classes commute, and the order
of the classes does not matter to the references of a model.
-/

namespace ClassModel

section Entering

theorem VariantKey.before_asymm {first second : VariantKey} (less : first.before second = true) :
    second.before first = false := by
  refine Bool.eq_false_iff.mpr fun more => ?_
  have self := before_trans less more
  rw [not_before_self] at self
  cases self

theorem VariantKey.ne_of_before {first second : VariantKey} (less : first.before second = true) :
    first ≠ second := by
  rintro rfl
  rw [not_before_self] at less
  cases less

theorem Variant.enter_comm_of_before {first second : VariantKey} (less : first.before second = true)
    (one two : Formalization) (variants : List Variant) :
    enter second two (enter first one variants) = enter first one (enter second two variants) := by
  have notMore := VariantKey.before_asymm less
  have different := VariantKey.ne_of_before less
  induction variants with
  | nil => simp [enter, different, Ne.symm different, less, notMore]
  | cons variant rest ih =>
    by_cases here : variant.key = first
    · subst here
      simp [enter, different, notMore]
    · by_cases earlier : first.before variant.key = true
      · -- the first record goes to the front, whatever the second one does
        by_cases there : variant.key = second
        · simp [enter, there, different, Ne.symm different, less, notMore]
        · by_cases front : second.before variant.key = true
          · simp [enter, here, there, front, earlier, different, Ne.symm different, less, notMore]
          · simp [enter, here, there, front, earlier, different, notMore]
      · -- both records go behind the one at the front
        have behind := (VariantKey.before_total here).resolve_right earlier
        have further := VariantKey.before_trans behind less
        have there := VariantKey.ne_of_before further
        simp [enter, here, there, earlier, VariantKey.before_asymm further, ih]

/-- Records of different keys can be entered in either order. -/
theorem Variant.enter_comm {first second : VariantKey} (different : first ≠ second)
    (one two : Formalization) (variants : List Variant) :
    enter second two (enter first one variants) = enter first one (enter second two variants) := by
  rcases VariantKey.before_total different with less | more
  · exact enter_comm_of_before less one two variants
  · exact (enter_comm_of_before more two one variants).symm

/-- Postings of different keys and the same kinds can be made in either order. -/
theorem Posting.enterInto_comm {first second : Posting} {one two : VariantKey}
    (firstKey : first.key? = some one) (secondKey : second.key? = some two) (different : one ≠ two)
    (kinds : (first.kind, first.relationshipKind) = (second.kind, second.relationshipKind))
    (held : Option Reference) :
    second.enterInto (some (first.enterInto held)) = first.enterInto (some (second.enterInto held)) := by
  obtain ⟨kind, relationshipKind⟩ := Prod.mk.injEq .. ▸ kinds
  have commute := Variant.enter_comm different first.data second.data
  rcases held with _ | ⟨_, _, _ | variants⟩ <;>
    simp [enterInto, Reference.enter, firstKey, secondKey, kind, relationshipKind, commute]

end Entering

section Posting

variable {classes : Table Name Resolved.Class} {relationships : Table Rnum Resolved.Relationship}

/-- Only the subclasses of a generalization formalize one side of a relationship together. -/
theorem Shape.formalizers {shape : Shape} {first second : Side} {referred one two : Name}
    (firstSide : shape.classOn? first = some referred) (secondSide : shape.classOn? second = some referred)
    (oneFormalizes : shape.IsFormalizedBy first one) (twoFormalizes : shape.IsFormalizedBy second two) :
    one = two ∨ ∃ superclass subclasses, shape = .generalization superclass subclasses := by
  cases shape with
  | generalization superclass subclasses => exact .inr ⟨superclass, subclasses, rfl⟩
  | association passive active associationClass =>
    refine .inl ?_
    cases associationClass with
    | some associationClass => exact oneFormalizes.trans twoFormalizes.symm
    | none => cases first <;> cases second <;> simp_all [classOn?, IsFormalizedBy]

/-- Right postings of different classes to one place have different keys. -/
theorem Posting.IsRight.keys_apart {relationship : Resolved.Relationship} {first second : Posting}
    (right : first.IsRight classes relationship) (alsoRight : second.IsRight classes relationship)
    (place : first.referred = second.referred)
    (different : first.data.formalizer ≠ second.data.formalizer) :
    ∃ one two, first.key? = some one ∧ second.key? = some two ∧ one ≠ two := by
  obtain ⟨superclass, subclasses, shape⟩ := (Shape.formalizers (place ▸ right.data.side)
    alsoRight.data.side right.data.formalizer alsoRight.data.formalizer).resolve_left different
  have keyed : ∀ posting : Posting, posting.IsRight classes relationship →
      posting.key? = some (.subclass posting.data.formalizer) := by
    intro posting right
    have keeps := right.keeps
    rw [shape] at keeps
    obtain ⟨key, found⟩ := Option.isSome_iff_exists.mp keeps
    have own := right.key key found
    rw [Resolved.Relationship.variantKey?, shape] at own
    rw [found, ← own]
  refine ⟨_, _, keyed first right, keyed second alsoRight, fun same => different ?_⟩
  injection same

/-- Right postings of different classes to one place can be made in either order. -/
theorem Posting.IsRight.comm {relationship : Resolved.Relationship} {first second : Posting}
    (right : first.IsRight classes relationship) (alsoRight : second.IsRight classes relationship)
    (place : first.referred = second.referred)
    (different : first.data.formalizer ≠ second.data.formalizer) (held : Option Reference) :
    second.enterInto (some (first.enterInto held)) = first.enterInto (some (second.enterInto held)) := by
  obtain ⟨one, two, firstKey, secondKey, apart⟩ := right.keys_apart alsoRight place different
  exact enterInto_comm firstKey secondKey apart (right.kinds.trans alsoRight.kinds.symm) held

end Posting

section Tables

variable {classes : Table Name Resolved.Class} {relationships : Table Rnum Resolved.Relationship}

theorem ClassMatches.formalizer_of_mem_postings {found : ClassMatches} {posting : Posting}
    (posted : posting ∈ found.postings relationships) : posting.data.formalizer = found.className := by
  obtain ⟨entry, _, posted⟩ := List.mem_flatMap.mp posted
  obtain ⟨side, _, rfl⟩ := List.mem_map.mp posted
  rfl

/-- Each class is matched once. -/
theorem ClassMatches.nodup_classNames (sound : WellFormed relationships classes)
    {found : List ClassMatches}
    (runs : List.Forall₂ (fun cls found => ofClass classes relationships cls = .ok found)
      classes.values found) : (found.map (·.className)).Nodup := by
  rw [map_eq_of_forall₂ runs fun _ _ ran => className_of_ofClass ran,
    Table.map_values_eq_keys sound.className]
  exact classes.keys_nodup

/-- What a place holds does not depend on the order of the classes that post to it. -/
theorem ReferentialTable.reference?_of_perm {left right : List ClassMatches} (perm : left.Perm right)
    (distinct : (left.map (·.className)).Nodup)
    (sound : ∀ found ∈ left, ∀ posting ∈ found.postings relationships, ∃ relationship,
      relationships.get? posting.rnum = some relationship ∧ posting.IsRight classes relationship)
    (leftNames rightNames : List Name) (referred : Name) (rnum : Rnum) :
    ((left.flatMap (·.postings relationships)).foldl post (.ofClasses leftNames)).reference? referred rnum =
      ((right.flatMap (·.postings relationships)).foldl post (.ofClasses rightNames)).reference?
        referred rnum := by
  rw [reference?_foldl_post, reference?_foldl_post, reference?_ofClasses, reference?_ofClasses,
    List.filter_flatMap, List.filter_flatMap, List.foldl_flatMap, List.foldl_flatMap]
  refine perm.foldl_eq' (fun first firstListed second secondListed held => ?_) none
  by_cases same : first = second
  · rw [same]
  have different : first.className ≠ second.className :=
    fun alike => same (List.inj_on_of_nodup_map distinct firstListed secondListed alike)
  refine foldl_comm (fun one oneListed two twoListed held => ?_) held
  obtain ⟨onePosted, onePlace⟩ := List.mem_filter.mp oneListed
  obtain ⟨twoPosted, twoPlace⟩ := List.mem_filter.mp twoListed
  obtain ⟨oneReferred, oneRnum⟩ := of_decide_eq_true onePlace
  obtain ⟨twoReferred, twoRnum⟩ := of_decide_eq_true twoPlace
  obtain ⟨relationship, known, oneRight⟩ := sound first firstListed one onePosted
  obtain ⟨other, found, twoRight⟩ := sound second secondListed two twoPosted
  rw [oneRnum] at known
  rw [twoRnum, known] at found
  cases found
  refine congrArg some (oneRight.comm twoRight (oneReferred.trans twoReferred.symm) ?_ held)
  rwa [ClassMatches.formalizer_of_mem_postings onePosted, ClassMatches.formalizer_of_mem_postings twoPosted]

/-- The classes of a table are those that it starts with and those posted to. -/
theorem ReferentialTable.mem_keys_foldl_post {postings : List Posting} {table : ReferentialTable}
    {name : Name} :
    name ∈ (postings.foldl post table).classes.keys ↔
      name ∈ table.classes.keys ∨ ∃ posting ∈ postings, posting.referred = name := by
  induction postings generalizing table with
  | nil => simp
  | cons posting rest ih =>
    have keys : name ∈ (table.post posting).classes.keys ↔
        name = posting.referred ∨ name ∈ table.classes.keys := Table.mem_keys_insert
    rw [List.foldl_cons, ih, keys, List.exists_mem_cons_iff, or_comm (a := name = posting.referred),
      or_assoc, eq_comm (a := name)]

theorem ReferentialTable.mem_keys_ofClasses {classNames : List Name} {name : Name} :
    name ∈ (ofClasses classNames).classes.keys ↔ name ∈ classNames := by
  rw [ofClasses, Table.mem_keys_ofList, List.map_map]
  simp

/-- Two referential tables that hold the same. -/
structure ReferentialTable.Same (left right : ReferentialTable) : Prop where
  classes : ∀ name, name ∈ left.classes.keys ↔ name ∈ right.classes.keys
  references : ∀ referred rnum, left.reference? referred rnum = right.reference? referred rnum

/-- Two lots of references that hold the same, in whatever order. -/
structure References.Same (left right : References) : Prop where
  referential : left.referential.Same right.referential
  ignoredLinks : left.ignoredLinks.Perm right.ignoredLinks
  choiceLinks : left.choiceLinks.Perm right.choiceLinks

end Tables

section Classes

variable {left right : Table Name Resolved.Class}
  {leftRelationships rightRelationships : Table Rnum Resolved.Relationship}

/-- The matches of a class depend on what is found in the tables. -/
theorem ClassMatches.ofClass_of_same (sameClasses : left.Same right)
    (sameRelationships : leftRelationships.Same rightRelationships) :
    ofClass left leftRelationships = ofClass right rightRelationships := by
  have classes : left.get? = right.get? := funext sameClasses
  have relationships : leftRelationships.get? = rightRelationships.get? := funext sameRelationships
  have sides : Partition.sidesOf left leftRelationships = Partition.sidesOf right rightRelationships := by
    unfold Partition.sidesOf
    rw [classes, relationships]
  have partitions : Partition.ofAttributes left leftRelationships =
      Partition.ofAttributes right rightRelationships := by
    unfold Partition.ofAttributes
    rw [sides]
  have matching : matchOver left leftRelationships = matchOver right rightRelationships := by
    unfold matchOver
    rw [partitions]
  unfold ofClass
  rw [matching]

theorem ClassMatches.postings_of_same (sameRelationships : leftRelationships.Same rightRelationships) :
    postings leftRelationships = postings rightRelationships := by
  have relationships : leftRelationships.get? = rightRelationships.get? := funext sameRelationships
  have keys : SideMatch.key? leftRelationships = SideMatch.key? rightRelationships := by
    unfold SideMatch.key?
    rw [relationships]
  unfold postings
  rw [keys]

/-- Classes are matched as they are without their numbers. -/
theorem ClassMatches.forall₂_unnumbered_iff {found : List ClassMatches} :
    List.Forall₂ (fun cls found => ofClass (unnumberedClasses left) leftRelationships cls = .ok found)
        (unnumberedClasses left).values found ↔
      List.Forall₂ (fun cls found => ofClass left leftRelationships cls = .ok found) left.values found := by
  rw [values_unnumberedClasses]
  simp only [List.forall₂_map_left_iff, ofClass_unnumbered]

/-- The references of classes that are alike are the same. -/
theorem References.ofClasses_of_same (sound : WellFormed leftRelationships left)
    (sameRelationships : leftRelationships.Same rightRelationships)
    (same : (unnumberedClasses left).Same (unnumberedClasses right)) {references : References}
    (success : ofClasses leftRelationships left = .ok references) :
    ∃ others, ofClasses rightRelationships right = .ok others ∧ references.Same others := by
  obtain ⟨found, runs, rfl⟩ := ofClasses_eq_ok_iff.mp success
  obtain ⟨others, otherRuns, perm⟩ :=
    List.perm_comp_forall₂ same.values_perm.symm (ClassMatches.forall₂_unnumbered_iff.mpr runs)
  rw [ClassMatches.ofClass_of_same same sameRelationships] at otherRuns
  have keys : left.keys.Perm right.keys := by
    rw [← keys_unnumberedClasses, ← keys_unnumberedClasses right]
    exact same.keys_perm
  have distinct := ClassMatches.nodup_classNames sound runs
  refine ⟨_, ofClasses_eq_ok_iff.mpr ⟨others, ClassMatches.forall₂_unnumbered_iff.mp otherRuns, rfl⟩,
    ⟨fun name => ?_, fun referred rnum => ?_⟩, perm.symm.flatMap_right _, perm.symm.flatMap_right _⟩
  all_goals
    rw [referential_ofMatches, referential_ofMatches, ← ClassMatches.postings_of_same sameRelationships]
  · rw [ReferentialTable.mem_keys_foldl_post, ReferentialTable.mem_keys_foldl_post,
      ReferentialTable.mem_keys_ofClasses, ReferentialTable.mem_keys_ofClasses, keys.mem_iff]
    simp only [(perm.flatMap_right _).mem_iff]
  · exact ReferentialTable.reference?_of_perm perm.symm distinct
      (fun _ listed _ posted => postings_right sound runs listed posted) _ _ referred rnum

end Classes

end ClassModel
