import ClassModel.Proofs.Consistency

/-! # What types depend on

Of its classes and references the types of a model depend on what the attributes declare, on which attributes
are linked, and on the choices there are. Models that agree on these have types alike.
-/

namespace ClassModel

theorem Resolved.Class.mapAttributes_congr {cls : Class} {change other : Attribute → Attribute}
    (alike : ∀ attr ∈ cls.allAttributes, change attr = other attr) :
    cls.mapAttributes change = cls.mapAttributes other := by
  unfold mapAttributes
  rw [List.map_congr_left fun attr listed => alike attr (List.mem_append_left _ listed),
    List.map_congr_left fun attr listed => alike attr (List.mem_append_right _ listed)]

/-- A class whose attributes resolve to the same types is annotated alike. -/
theorem Typing.annotate_congr {classes : Table Name Resolved.Class} {typing other : Typing}
    (resolved : ∀ className attr, (slotAttribute? classes (className, attr)).isSome = true →
      typing.resolution? className attr = other.resolution? className attr) {cls : Resolved.Class}
    (known : classes.get? cls.name = some cls) : typing.annotate cls = other.annotate cls := by
  rw [annotate_eq, annotate_eq]
  refine Resolved.Class.mapAttributes_congr fun attr owned => ?_
  rw [resolved _ _ (isSome_slotAttribute?_iff.mpr ⟨cls, known, attr, owned, rfl⟩)]

/-- Where all attributes resolve to the same types, the same types are in use. -/
theorem Typing.uses_congr {classes : Table Name Resolved.Class}
    (named : ∀ name cls, classes.get? name = some cls → cls.name = name) {typing other : Typing}
    (resolved : ∀ className attr, (slotAttribute? classes (className, attr)).isSome = true →
      typing.resolution? className attr = other.resolution? className attr) :
    typing.uses classes.values = other.uses classes.values := by
  unfold uses
  rw [List.flatMap_def, List.flatMap_def]
  refine congrArg _ (List.map_congr_left fun cls listed => List.filterMap_congr fun attr owned => ?_)
  obtain ⟨name, known⟩ := Table.mem_values_iff.mp listed
  obtain rfl := named name cls known
  exact resolved _ _ (isSome_slotAttribute?_iff.mpr ⟨cls, known, attr, owned, rfl⟩)

/-- The declared member list, unless it is empty. -/
def Resolved.Attribute.memberList? (attr : Attribute) : Option (List Name) := attr.union.filter (!·.isEmpty)

/-- Two models whose attributes declare the same scalars and, but for empty ones, the same member lists, and are
linked alike. -/
structure References.Resemble (leftClasses rightClasses : Table Name Resolved.Class) (left right : References) :
    Prop where
  scalars : ∀ key, (slotAttribute? leftClasses key).map (·.scalar) =
    (slotAttribute? rightClasses key).map (·.scalar)
  memberLists : ∀ key, (slotAttribute? leftClasses key).map (·.memberList?) =
    (slotAttribute? rightClasses key).map (·.memberList?)
  linked : left.Linked = right.Linked
  choiceLinks : ∀ link, link ∈ left.choiceLinks ↔ link ∈ right.choiceLinks

/-- Two models whose attributes declare the same types and are linked alike. -/
structure References.Agree (leftClasses rightClasses : Table Name Resolved.Class) (left right : References) :
    Prop where
  attributes : ∀ key, (slotAttribute? leftClasses key).map (fun attr => (attr.scalar, attr.union)) =
    (slotAttribute? rightClasses key).map fun attr => (attr.scalar, attr.union)
  linked : left.Linked = right.Linked
  choiceLinks : ∀ link, link ∈ left.choiceLinks ↔ link ∈ right.choiceLinks

/-- A member list that is not empty is declared as such. -/
theorem References.declaresUnion_filled_iff {classes : Table Name Resolved.Class} {references : References}
    {key : SlotKey} {members : NameSet} :
    (references.DeclaresUnion classes key members ∧ members.isEmpty = false) ↔
      references.DeclaredBy classes (fun attr => attr.memberList?.map .ofList) key members := by
  have filled : ∀ attr : Resolved.Attribute,
      (attr.union.map NameSet.ofList = some members ∧ members.isEmpty = false) ↔
        attr.memberList?.map NameSet.ofList = some members := by
    intro attr
    simp only [Resolved.Attribute.memberList?, Option.map_eq_some_iff, Option.filter_eq_some_iff]
    constructor
    · rintro ⟨⟨names, declared, rfl⟩, inhabited⟩
      exact ⟨names, ⟨declared, by rw [← NameSet.isEmpty_ofList, inhabited]; rfl⟩, rfl⟩
    · rintro ⟨names, ⟨declared, inhabited⟩, rfl⟩
      exact ⟨⟨names, declared, rfl⟩, by rwa [NameSet.isEmpty_ofList, ← Bool.not_eq_true']⟩
  simp only [DeclaresUnion, DeclaredBy, ← filled]
  constructor
  · rintro ⟨⟨other, attr, equal, counts, declared⟩, inhabited⟩
    exact ⟨other, attr, equal, counts, declared, inhabited⟩
  · rintro ⟨other, attr, equal, counts, declared, inhabited⟩
    exact ⟨⟨other, attr, equal, counts, declared⟩, inhabited⟩

/-- What an attribute has of itself depends on the member lists that are not empty. -/
theorem References.declares_iff {classes : Table Name Resolved.Class} {references : References} {key : SlotKey}
    {name : Name} : references.Declares classes key name ↔
      (∃ members, (references.DeclaresUnion classes key members ∧ members.isEmpty = false) ∧ name ∈ members) ∨
        (∀ members, ¬(references.DeclaresUnion classes key members ∧ members.isEmpty = false)) ∧
          references.DeclaresScalar classes key name := by
  refine or_congr (exists_congr fun members => ?_) (and_congr_left fun _ => forall_congr' fun members => ?_)
  · rw [and_assoc]
    refine and_congr_right fun _ => ?_
    rw [iff_and_self]
    exact fun present => NameSet.isEmpty_eq_false_iff.mpr ⟨name, present⟩
  · rw [not_and, Bool.not_eq_false]

section Resemble

variable {leftClasses rightClasses : Table Name Resolved.Class} {left right : References}
  (resemble : References.Resemble leftClasses rightClasses left right)

include resemble

namespace References.Resemble

theorem symm : Resemble rightClasses leftClasses right left where
  scalars key := (resemble.scalars key).symm
  memberLists key := (resemble.memberLists key).symm
  linked := resemble.linked.symm
  choiceLinks link := (resemble.choiceLinks link).symm

theorem isSome_slotAttribute? (key : SlotKey) :
    (slotAttribute? leftClasses key).isSome = (slotAttribute? rightClasses key).isSome := by
  have same := congrArg Option.isSome (resemble.scalars key)
  rwa [Option.isSome_map, Option.isSome_map] at same

theorem equal_eq : left.Equal = right.Equal := by
  rw [Equal, Equal, resemble.linked]

theorem hasChoices_eq : left.HasChoices = right.HasChoices := by
  funext key
  simp only [HasChoices, resemble.equal_eq, resemble.choiceLinks]

theorem leads_eq : left.Leads = right.Leads := by
  funext first second
  simp only [Leads, resemble.equal_eq, resemble.choiceLinks]

theorem declaredBy_eq {α : Type} {view : Resolved.Attribute → Option α}
    (same : ∀ key, (slotAttribute? leftClasses key).map view = (slotAttribute? rightClasses key).map view) :
    left.DeclaredBy leftClasses view = right.DeclaredBy rightClasses view := by
  have declared : ∀ (classes : Table Name Resolved.Class) (key : SlotKey) (value : α),
      (∃ attr, slotAttribute? classes key = some attr ∧ view attr = some value) ↔
        (slotAttribute? classes key).map view = some (some value) := by
    intro classes key value
    rw [Option.map_eq_some_iff]
  funext key value
  simp only [DeclaredBy, exists_and_left, declared, same, resemble.equal_eq]

theorem declaresScalar_eq : left.DeclaresScalar leftClasses = right.DeclaresScalar rightClasses :=
  resemble.declaredBy_eq resemble.scalars

theorem declaresUnion_filled_iff {key : SlotKey} {members : NameSet} :
    (left.DeclaresUnion leftClasses key members ∧ members.isEmpty = false) ↔
      (right.DeclaresUnion rightClasses key members ∧ members.isEmpty = false) := by
  have same : left.DeclaredBy leftClasses (fun attr => attr.memberList?.map NameSet.ofList) =
      right.DeclaredBy rightClasses fun attr => attr.memberList?.map NameSet.ofList := by
    refine resemble.declaredBy_eq fun key => ?_
    have mapped := congrArg (Option.map (Option.map NameSet.ofList)) (resemble.memberLists key)
    rwa [Option.map_map, Option.map_map] at mapped
  rw [References.declaresUnion_filled_iff, References.declaresUnion_filled_iff, same]

theorem closure_eq : left.Closure leftClasses = right.Closure rightClasses := by
  have declares : left.Declares leftClasses = right.Declares rightClasses := by
    funext key name
    simp only [declares_iff, resemble.declaresUnion_filled_iff, resemble.declaresScalar_eq]
  unfold Closure
  rw [resemble.leads_eq, resemble.hasChoices_eq, declares]

/-- What is consistent in the one model is so in the other, but for the empty member lists. -/
theorem consistent (holds : left.Consistent leftClasses)
    (unions : ∀ key first second, right.DeclaresUnion rightClasses key first →
      right.DeclaresUnion rightClasses key second → first = second) : right.Consistent rightClasses := by
  obtain ⟨scalars, _, inhabited, listed, single, several, aliases⟩ := holds
  rw [resemble.declaresScalar_eq] at scalars single several aliases
  rw [resemble.closure_eq] at inhabited listed single several aliases
  simp only [resemble.isSome_slotAttribute?] at inhabited
  refine ⟨scalars, unions, inhabited, fun key members declared filled => ?_, single,
    fun key first second left right different scalar declared => ?_, aliases⟩
  · exact listed key members (resemble.declaresUnion_filled_iff.mpr ⟨declared, filled⟩).1 filled
  · obtain ⟨members, given⟩ := several key first second left right different scalar declared
    exact ⟨members, resemble.declaresUnion_filled_iff.mp given⟩

theorem tabled {types : TypeTable} (holds : left.Tabled leftClasses types) :
    right.Tabled rightClasses types := by
  obtain ⟨scalars, distinct, unions⟩ := holds
  rw [resemble.closure_eq] at scalars unions
  simp only [resemble.isSome_slotAttribute?] at scalars unions
  rw [resemble.declaresScalar_eq] at unions
  exact ⟨scalars, distinct, unions⟩

end References.Resemble

/-- Where models resemble each other, their attributes resolve to the same types. -/
theorem Typing.resolution?_of_resemble {typing other : Typing} (fits : typing.Fits leftClasses left)
    (fitsOther : other.Fits rightClasses right) {className attr : Name}
    (counts : (slotAttribute? leftClasses (className, attr)).isSome = true) :
    typing.resolution? className attr = other.resolution? className attr := by
  obtain ⟨closed, scalar, _, closure, declared, found⟩ := fits _ counts
  obtain ⟨others, stood, _, reached, stated, given⟩ := fitsOther _ (resemble.isSome_slotAttribute? _ ▸ counts)
  have alike : closed = others := NameSet.ext fun name => by
    rw [closure, reached, resemble.closure_eq]
  have declares : scalar = stood := Option.ext fun name => by
    rw [declared, stated, resemble.declaresScalar_eq]
  rw [alike, declares] at found
  exact found.trans given.symm

/-- Where the one of two models that resemble each other has types and the other is consistent, it has the
same. -/
theorem Typing.exists_of_resemble {leftRelationships rightRelationships : Table Rnum Resolved.Relationship}
    (sound : WellFormed leftRelationships leftClasses) (otherSound : WellFormed rightRelationships rightClasses)
    (matched : References.ofClasses leftRelationships leftClasses = .ok left)
    (otherMatched : References.ofClasses rightRelationships rightClasses = .ok right)
    (consistent : right.Consistent rightClasses) {typing : Typing} {types : TypeTable}
    (typed : ofReferences leftClasses left = .ok typing)
    (tabled : typing.typeTable leftClasses.values = .ok types) :
    ∃ other others, ofReferences rightClasses right = .ok other ∧
      other.typeTable rightClasses.values = .ok others ∧
      right.Tabled rightClasses types ∧ right.Tabled rightClasses others ∧
      ∀ className attr, (slotAttribute? leftClasses (className, attr)).isSome = true →
        typing.resolution? className attr = other.resolution? className attr := by
  obtain ⟨other, others, otherTyped, otherTabled⟩ :=
    (exists_typeTable_iff otherSound otherMatched).mpr consistent
  have settles := settles sound matched typed
  have otherSettles := Typing.settles otherSound otherMatched otherTyped
  refine ⟨other, others, otherTyped, otherTabled, resemble.tabled ?_, ?_, fun _ _ counts =>
    resolution?_of_resemble resemble settles.fits otherSettles.fits counts⟩
  · exact settles.fits.tabled sound.className (fun _ _ => settles.divides.isSome_of_declared)
      (typeTable_spec.2 types tabled)
  · exact otherSettles.fits.tabled otherSound.className (fun _ _ => otherSettles.divides.isSome_of_declared)
      (typeTable_spec.2 others otherTabled)

end Resemble

section Agree

variable {leftClasses rightClasses : Table Name Resolved.Class} {left right : References}
  (agree : References.Agree leftClasses rightClasses left right)

include agree

namespace References.Agree

theorem map_slotAttribute? {α : Type} (view : Option Name × Option (List Name) → α) (key : SlotKey) :
    (slotAttribute? leftClasses key).map (fun attr => view (attr.scalar, attr.union)) =
      (slotAttribute? rightClasses key).map fun attr => view (attr.scalar, attr.union) := by
  have mapped := congrArg (Option.map view) (agree.attributes key)
  rwa [Option.map_map, Option.map_map] at mapped

theorem resemble : Resemble leftClasses rightClasses left right := by
  let filled : Option Name × Option (List Name) → Option (List Name) :=
    fun types => types.2.filter (!·.isEmpty)
  exact ⟨agree.map_slotAttribute? (·.1), agree.map_slotAttribute? filled, agree.linked, agree.choiceLinks⟩

/-- What is consistent in the one model is so in the other. -/
theorem consistent (holds : left.Consistent leftClasses) : right.Consistent rightClasses := by
  have same : left.DeclaresUnion leftClasses = right.DeclaresUnion rightClasses :=
    agree.resemble.declaredBy_eq (agree.map_slotAttribute? (·.2.map NameSet.ofList))
  exact agree.resemble.consistent holds (same ▸ holds.unions)

end References.Agree

/-- Where the one of two models that agree has types, the other has the same. -/
theorem Typing.exists_of_agree {leftRelationships rightRelationships : Table Rnum Resolved.Relationship}
    (sound : WellFormed leftRelationships leftClasses) (otherSound : WellFormed rightRelationships rightClasses)
    (matched : References.ofClasses leftRelationships leftClasses = .ok left)
    (otherMatched : References.ofClasses rightRelationships rightClasses = .ok right) {typing : Typing}
    {types : TypeTable} (typed : ofReferences leftClasses left = .ok typing)
    (tabled : typing.typeTable leftClasses.values = .ok types) :
    ∃ other others, ofReferences rightClasses right = .ok other ∧
      other.typeTable rightClasses.values = .ok others ∧
      right.Tabled rightClasses types ∧ right.Tabled rightClasses others ∧
      ∀ className attr, (slotAttribute? leftClasses (className, attr)).isSome = true →
        typing.resolution? className attr = other.resolution? className attr := by
  have consistent := (exists_typeTable_iff sound matched).mp ⟨typing, types, typed, tabled⟩
  exact exists_of_resemble agree.resemble sound otherSound matched otherMatched (agree.consistent consistent)
    typed tabled

end Agree

end ClassModel
