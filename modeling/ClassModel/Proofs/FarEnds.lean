import ClassModel.Proofs.Renames
import ClassModel.Proofs.Unreached

/-! # The ends that a class refers to

What a class can navigate to over a relationship is what it refers to over it, with one exception: over a
reflexive association without an association class it can navigate to both sides, but refers to the active
one only. So a navigation can lead astray only to the passive side of such an association, and where an
attribute navigates its class refers.
-/

namespace ClassModel

/-- Whether a shape is an association of a class with itself that has no association class. -/
def Shape.IsReflexiveOn (shape : Shape) (className : Name) : Prop :=
  ∃ passive active, shape = .association passive active none ∧ passive.className = className ∧
    active.className = className

/-- The sides that a class can navigate to over a relationship, with the classes there. -/
def Endpoint.sidesSeen (relationships : List Resolved.Relationship) (className : Name) (rnum : Rnum) :
    Set (Side × Name) :=
  {far | ∃ endpoint ∈ seenFrom relationships className,
    endpoint.rnum = rnum ∧ (endpoint.side, endpoint.className) = far}

/-- The sides that a class refers to over a relationship, with the classes there; none where they are
missing. -/
def Partition.sidesReferred (classes : Table Name Resolved.Class)
    (relationships : Table Rnum Resolved.Relationship) (cls : Resolved.Class) (rnum : Rnum) : Set (Side × Name) :=
  {far | ∃ sources, sidesOf classes relationships cls rnum = .ok sources ∧
    ∃ source ∈ sources, (source.side, source.referred.name) = far}

section Shapes

variable {className : Name}

/-- Over a reflexive association a class refers to its active side. -/
theorem Shape.IsReflexiveOn.farEnds?_eq {relationship : Resolved.Relationship}
    (reflexive : relationship.shape.IsReflexiveOn className) :
    relationship.farEnds? className = some [(.active, className)] := by
  obtain ⟨passive, active, shaped, onPassive, onActive⟩ := reflexive
  simp [Resolved.Relationship.farEnds?, shaped, onPassive, onActive]

/-- The ends that a relationship offers a class are its far ends, and the passive side as well if it is
reflexive on the class. -/
theorem Resolved.Relationship.exists_mem_endpoints_iff {relationship : Relationship} {far : Side × Name} :
    (∃ endpoint, (className, endpoint) ∈ relationship.endpoints ∧
      (endpoint.side, endpoint.className) = far) ↔
      (∃ ends, relationship.farEnds? className = some ends ∧ far ∈ ends) ∨
        (relationship.shape.IsReflexiveOn className ∧ far = (.passive, className)) := by
  obtain ⟨rnum, subsystem, shape⟩ := relationship
  cases shape with
  | generalization superclass subclasses =>
    by_cases listed : className ∈ subclasses
    · simp [endpoints, farEnds?, Shape.IsReflexiveOn, listed, eq_comm]
    · simp [endpoints, farEnds?, Shape.IsReflexiveOn, listed]
  | association passive active associationClass =>
    cases associationClass with
    | some associationClass =>
      by_cases own : associationClass = className
      · simp [endpoints, farEnds?, Shape.IsReflexiveOn, own, or_and_right, exists_or, eq_comm]
      · simp [endpoints, farEnds?, Shape.IsReflexiveOn, own, Ne.symm own]
    | none =>
      by_cases onPassive : passive.className = className
      · by_cases onActive : active.className = className
        · simp [endpoints, farEnds?, Shape.IsReflexiveOn, onPassive, onActive, or_and_right, exists_or,
            eq_comm, or_comm]
        · simp [endpoints, farEnds?, Shape.IsReflexiveOn, onPassive, Ne.symm onActive, eq_comm]
      · by_cases onActive : active.className = className
        · simp [endpoints, farEnds?, Shape.IsReflexiveOn, onPassive, Ne.symm onPassive, onActive, eq_comm]
        · simp [endpoints, farEnds?, Shape.IsReflexiveOn, onPassive, Ne.symm onPassive, onActive, Ne.symm onActive]

end Shapes

variable {relationships : Table Rnum Resolved.Relationship} {classes : Table Name Resolved.Class}

section Agreement

variable (sound : WellFormed relationships classes) {relationship : Resolved.Relationship}

include sound

/-- An end that a class sees is one that its relationship offers the class. -/
theorem Endpoint.mem_seenFrom_values_iff {className : Name} {endpoint : Endpoint} :
    endpoint ∈ seenFrom relationships.values className ↔ ∃ relationship,
      relationships.get? endpoint.rnum = some relationship ∧ relationship.isOrdinal = false ∧
        (className, endpoint) ∈ relationship.endpoints := by
  rw [mem_seenFrom_iff]
  constructor
  · rintro ⟨relationship, listed, plain, offered⟩
    obtain ⟨rnum, held⟩ := Table.mem_values_iff.mp listed
    rw [Resolved.Relationship.rnum_of_mem_endpoints offered, sound.rnum _ _ held]
    exact ⟨relationship, held, plain, offered⟩
  · rintro ⟨relationship, held, plain, offered⟩
    exact ⟨relationship, Table.mem_values_of_get? held, plain, offered⟩

theorem Endpoint.mem_sidesSeen_iff {rnum : Rnum} (related : relationships.get? rnum = some relationship)
    (plain : relationship.isOrdinal = false) {className : Name} {far : Side × Name} :
    far ∈ sidesSeen relationships.values className rnum ↔
      ∃ endpoint, (className, endpoint) ∈ relationship.endpoints ∧
        (endpoint.side, endpoint.className) = far := by
  constructor
  · rintro ⟨endpoint, seen, rfl, same⟩
    obtain ⟨other, held, _, offered⟩ := (mem_seenFrom_values_iff sound).mp seen
    rw [related] at held
    cases held
    exact ⟨endpoint, offered, same⟩
  · rintro ⟨endpoint, offered, same⟩
    have numbered : endpoint.rnum = rnum :=
      (Resolved.Relationship.rnum_of_mem_endpoints offered).trans (sound.rnum _ _ related)
    refine ⟨endpoint, (mem_seenFrom_values_iff sound).mpr ⟨relationship, ?_, plain, offered⟩, numbered, same⟩
    rw [numbered, related]

theorem Partition.mem_sidesReferred_iff {rnum : Rnum} (related : relationships.get? rnum = some relationship)
    {cls : Resolved.Class} {far : Side × Name} :
    far ∈ sidesReferred classes relationships cls rnum ↔
      ∃ ends, relationship.farEnds? cls.name = some ends ∧ far ∈ ends := by
  constructor
  · rintro ⟨sources, ran, source, listed, rfl⟩
    obtain ⟨other, ends, held, offered, pairs⟩ := sidesOf_eq_ok_iff.mp ran
    rw [related] at held
    cases held
    obtain ⟨far, present, referred, found, rfl⟩ := exists_left_of_forall₂ pairs listed
    rw [sound.className _ _ found]
    exact ⟨ends, offered, present⟩
  · rintro ⟨ends, offered, present⟩
    obtain ⟨sources, ran⟩ := exists_sidesOf sound related offered
    obtain ⟨other, others, held, same, pairs⟩ := sidesOf_eq_ok_iff.mp ran
    rw [related] at held
    cases held
    rw [offered] at same
    cases same
    obtain ⟨source, listed, referred, found, rfl⟩ := exists_left_of_forall₂ pairs.flip present
    exact ⟨sources, ran, _, listed, by rw [sound.className _ _ found]⟩

/-- A class can navigate to the sides that it refers to, and to the passive side as well where the
relationship is reflexive on it. -/
theorem Endpoint.sidesSeen_eq {rnum : Rnum} (related : relationships.get? rnum = some relationship)
    (plain : relationship.isOrdinal = false) (cls : Resolved.Class) :
    sidesSeen relationships.values cls.name rnum = Partition.sidesReferred classes relationships cls rnum ∪
      {far | relationship.shape.IsReflexiveOn cls.name ∧ far = (.passive, cls.name)} := by
  ext far
  rw [mem_sidesSeen_iff sound related plain, Resolved.Relationship.exists_mem_endpoints_iff, Set.mem_union,
    Partition.mem_sidesReferred_iff sound related]
  rfl

/-- Over a reflexive association a class refers to the active side only. -/
theorem Partition.sidesReferred_of_reflexive {rnum : Rnum}
    (related : relationships.get? rnum = some relationship) {cls : Resolved.Class}
    (reflexive : relationship.shape.IsReflexiveOn cls.name) :
    sidesReferred classes relationships cls rnum = {(.active, cls.name)} := by
  ext far
  simp [mem_sidesReferred_iff sound related, reflexive.farEnds?_eq]

/-- Where a class does not refer over a relationship of the model it can navigate to nothing over it. -/
theorem Partition.sidesSeen_eq_empty {rnum : Rnum} (related : relationships.get? rnum = some relationship)
    (plain : relationship.isOrdinal = false) {cls : Resolved.Class} {failure : AnalysisError}
    (failed : sidesOf classes relationships cls rnum = .error failure) :
    failure = .invalidReferential rnum cls.name cls.subsystem ∧
      Endpoint.sidesSeen relationships.values cls.name rnum = ∅ := by
  obtain ⟨absent, _⟩ | ⟨other, held, apart, rfl⟩ := (sidesOf_eq_error_iff sound).mp failed
  · rw [related] at absent
    cases absent
  rw [related] at held
  cases held
  refine ⟨rfl, Set.eq_empty_iff_forall_notMem.mpr fun far seen => ?_⟩
  rw [Endpoint.mem_sidesSeen_iff sound related plain,
    Resolved.Relationship.exists_mem_endpoints_iff] at seen
  obtain ⟨ends, offered, _⟩ | ⟨reflexive, _⟩ := seen
  · rw [apart] at offered
    cases offered
  · rw [reflexive.farEnds?_eq] at apart
    cases apart

/-- A class refers over a relationship that it sees an end of. -/
theorem Endpoint.exists_farEnds {className : Name} {endpoint : Endpoint}
    (seen : endpoint ∈ seenFrom relationships.values className) :
    ∃ relationship ends, relationships.get? endpoint.rnum = some relationship ∧
      relationship.isOrdinal = false ∧ relationship.farEnds? className = some ends := by
  obtain ⟨relationship, related, plain, offered⟩ := (mem_seenFrom_values_iff sound).mp seen
  obtain ⟨ends, refers, _⟩ | ⟨reflexive, _⟩ :=
    Resolved.Relationship.exists_mem_endpoints_iff.mp ⟨endpoint, offered, rfl⟩
  · exact ⟨relationship, ends, related, plain, refers⟩
  · exact ⟨relationship, _, related, plain, reflexive.farEnds?_eq⟩

end Agreement

/-- Whether an attribute lists a relationship, as one that it formalizes or as one that it chooses over. -/
def Resolved.Attribute.Lists (attr : Attribute) (rnum : Rnum) : Prop :=
  (rnum ∈ attr.relationships ∧ rnum.isOrdinal = false) ∨ rnum ∈ attr.unionRelationships

/-- What is wrong where the references of a class cannot be matched. -/
inductive MatchingFault (relationships : Table Rnum Resolved.Relationship) (cls : Resolved.Class) :
    AnalysisError → Prop where
  | duplicateNavigation {attr : Resolved.Attribute} (owned : attr ∈ cls.allAttributes) {rnum : Rnum}
      (again : ¬((attr.navigationsOver rnum).map (·.endpoint.side)).Nodup) :
      MatchingFault relationships cls (.duplicateNavigation rnum cls.name attr.name)
  | redundantRename {attr : Resolved.Attribute} (owned : attr ∈ cls.allAttributes) {rename : Rename}
      (renamed : rename ∈ attr.renames) :
      MatchingFault relationships cls (.redundantRename rename.rnum cls.name attr.name)
  | unknownReferential {attr : Resolved.Attribute} (owned : attr ∈ cls.allAttributes) {rnum : Rnum}
      (lists : attr.Lists rnum) (absent : relationships.get? rnum = none) :
      MatchingFault relationships cls (.unknownReferential rnum cls.name cls.subsystem)
  | invalidReferential {attr : Resolved.Attribute} (owned : attr ∈ cls.allAttributes) {rnum : Rnum}
      (lists : attr.Lists rnum) {relationship : Resolved.Relationship}
      (related : relationships.get? rnum = some relationship) (apart : relationship.farEnds? cls.name = none) :
      MatchingFault relationships cls (.invalidReferential rnum cls.name cls.subsystem)
  | invalidNavigation {attr : Resolved.Attribute} (owned : attr ∈ cls.allAttributes) {navigation : Navigation}
      (leads : navigation ∈ attr.navigations) (astray : navigation.endpoint.side = .passive)
      {relationship : Resolved.Relationship}
      (related : relationships.get? navigation.endpoint.rnum = some relationship)
      (reflexive : relationship.shape.IsReflexiveOn cls.name) :
      MatchingFault relationships cls (.invalidNavigation navigation.endpoint.rnum cls.name attr.name)
  | badNaming (rnum : Rnum) (name : Name) :
      MatchingFault relationships cls (.badNaming rnum cls.name cls.subsystem name)
  | unmatchedReference (rnum : Rnum) (attrs : List Name) (reason : MatchFailure) :
      MatchingFault relationships cls (.unmatchedReference rnum cls.name cls.subsystem attrs reason)

/-- A relationship that is unknown, or not one of the class, is listed by an attribute, and the class does not
refer over it. -/
theorem MatchingFault.lists {cls : Resolved.Class} {failure : AnalysisError}
    (fault : MatchingFault relationships cls failure) {rnum : Rnum} {className subsystem : Name}
    (kind : failure = .unknownReferential rnum className subsystem ∨
      failure = .invalidReferential rnum className subsystem) :
    cls.name = className ∧ (∃ attr ∈ cls.allAttributes, attr.Lists rnum) ∧
      ∀ relationship, relationships.get? rnum = some relationship →
        relationship.farEnds? cls.name = none := by
  rcases kind with rfl | rfl
  · cases fault with
    | unknownReferential owned lists absent => exact ⟨rfl, ⟨_, owned, lists⟩, by simp [absent]⟩
  · cases fault with
    | invalidReferential owned lists related apart => exact ⟨rfl, ⟨_, owned, lists⟩, by simp [related, apart]⟩

theorem Layout.failsOnly_addNavigations {cls : Resolved.Class} {attr : Resolved.Attribute}
    (owned : attr ∈ cls.allAttributes) (rnum : Rnum) (layout : Layout) :
    FailsOnly (MatchingFault relationships cls) (addNavigations cls.name attr rnum layout) := by
  unfold addNavigations
  dsimp only
  split
  · rename_i again
    exact .error (.duplicateNavigation owned again)
  · split <;> exact .ok _

theorem Layout.failsOnly_ofClass (cls : Resolved.Class) :
    FailsOnly (MatchingFault relationships cls) (ofClass cls) := by
  refine .foldlM (fun layout attr owned => ?_) _
  refine .bind (.foldlM (fun _ _ _ => failsOnly_addNavigations owned _ _) _) fun _ => ?_
  refine .bind (.foldlM (fun _ _ _ => failsOnly_addNavigations owned _ _) _) fun _ => ?_
  refine .foldlM (fun layout rename renamed => ?_) _
  unfold addRename
  split
  · exact .error (.redundantRename owned renamed)
  · exact .ok _

section Matching

variable (sound : WellFormed relationships classes) {cls : Resolved.Class}
  (known : classes.get? cls.name = some cls) {rnum : Rnum}

include sound known

/-- The sides of a class over a relationship that an attribute uses are missing only if the attribute lists
the relationship. -/
theorem Partition.failsOnly_sidesOf {attr : Resolved.Attribute} (owned : attr ∈ cls.allAttributes)
    (used : rnum ∈ attr.formalizes ∨ rnum ∈ attr.unionRelationships) :
    FailsOnly (MatchingFault relationships cls) (sidesOf classes relationships cls rnum) := by
  refine ⟨fun failure failed => ?_⟩
  have refers : ∀ navigation ∈ attr.navigations, navigation.endpoint.rnum = rnum →
      ∃ sources, sidesOf classes relationships cls rnum = .ok sources := by
    rintro navigation leads rfl
    obtain ⟨relationship, ends, related, _, offered⟩ :=
      Endpoint.exists_farEnds sound (sound.navigations _ _ known attr owned navigation leads)
    exact exists_sidesOf sound related offered
  have lists : attr.Lists rnum := by
    refine used.imp_left fun formalizes => ?_
    obtain ⟨_, ⟨navigation, leads, numbered⟩ | listed⟩ := Resolved.Attribute.mem_formalizes_iff.mp formalizes
    · obtain ⟨sources, ran⟩ := refers navigation leads numbered
      rw [failed] at ran
      cases ran
    · exact listed
  obtain ⟨absent, rfl⟩ | ⟨relationship, related, apart, rfl⟩ := (sidesOf_eq_error_iff sound).mp failed
  · exact .unknownReferential owned lists absent
  · exact .invalidReferential owned lists related apart

/-- A navigation that leads to none of the sides that a class refers to leads to the passive side of a
reflexive association. -/
theorem Partition.fault_of_astray {sources : List SourceSide}
    (sided : sidesOf classes relationships cls rnum = .ok sources) {attr : Resolved.Attribute}
    (owned : attr ∈ cls.allAttributes) {navigation : Navigation} (leads : navigation ∈ attr.navigations)
    (numbered : navigation.endpoint.rnum = rnum)
    (missed : ∀ source ∈ sources, source.isReachedBy navigation = false) :
    MatchingFault relationships cls (.invalidNavigation rnum cls.name attr.name) := by
  subst numbered
  have seen := sound.navigations _ _ known attr owned navigation leads
  obtain ⟨relationship, _, related, plain, _⟩ := Endpoint.exists_farEnds sound seen
  have far : (navigation.endpoint.side, navigation.endpoint.className) ∈
      Endpoint.sidesSeen relationships.values cls.name navigation.endpoint.rnum :=
    ⟨navigation.endpoint, seen, rfl, rfl⟩
  rw [Endpoint.sidesSeen_eq sound related plain] at far
  obtain ⟨others, ran, source, listed, same⟩ | ⟨reflexive, astray⟩ := far
  · rw [sided] at ran
    cases ran
    obtain ⟨side, referred⟩ := Prod.mk.inj same
    have reached := missed source listed
    simp [SourceSide.isReachedBy, side, referred] at reached
  · exact .invalidNavigation owned leads (Prod.ext_iff.mp astray).1 related reflexive

/-- Attributes are placed unless one of them leads astray. -/
theorem Partition.failsOnly_ofAttributes {layout : Layout} (laid : Layout.ofClass cls = .ok layout)
    {attr : Resolved.Attribute} (owned : attr ∈ cls.allAttributes)
    (used : rnum ∈ attr.formalizes ∨ rnum ∈ attr.unionRelationships) (attrs : List Name) :
    FailsOnly (MatchingFault relationships cls)
      (ofAttributes classes relationships cls layout rnum attrs) := by
  refine .bind_of_ok (failsOnly_sidesOf sound known owned used) fun sources sided => ?_
  -- Placing attributes leaves the ends as they were.
  let SameEnds (state : Partition) : Prop := state.ends = ends ⟨sources, []⟩
  refine .foldlM_of_invariant (motive := SameEnds) (fun state same name _ => ?_)
    (fun _ _ _ _ same ran => (placeAttribute_spec ran).1.trans same) rfl
  unfold placeAttribute
  split
  · exact .ok _
  · refine .foldlM_of_invariant (motive := SameEnds) (fun state same navigation listed => ?_)
      (fun _ _ _ _ same ran => (bindNavigation_spec ran).1.trans same) same
    unfold bindNavigation
    split
    · rename_i stuck
      rw [Layout.navigationsOf_ofClass laid] at listed
      obtain ⟨record, owned, rfl, leads, numbered⟩ := Resolved.Class.exists_of_mem_navigationsOver listed
      refine .error (fault_of_astray sound known sided owned leads numbered fun source present => ?_)
      have stays : (source.side, source.referred) ∈ state.ends := same ▸ List.mem_map.mpr ⟨source, present, rfl⟩
      obtain ⟨other, held, agrees⟩ := List.mem_map.mp stays
      obtain ⟨side, referred⟩ := Prod.mk.inj agrees
      have missed := SourceSide.bindTo?_eq_none_iff.mp stuck other held
      rwa [SourceSide.isReachedBy, side, referred] at missed
    · exact .ok _

/-- Matching a relationship fails as placing its attributes does, or for the names that these go by. -/
theorem ClassMatches.failsOnly_matchOver {layout : Layout} (laid : Layout.ofClass cls = .ok layout)
    {attr : Resolved.Attribute} (owned : attr ∈ cls.allAttributes) {entry : Rnum × List Name}
    (used : entry.1 ∈ attr.formalizes ∨ entry.1 ∈ attr.unionRelationships) :
    FailsOnly (MatchingFault relationships cls) (matchOver classes relationships cls layout entry) := by
  refine .bind (Partition.failsOnly_ofAttributes sound known laid owned used entry.2) fun partition => ?_
  split
  · exact .ok _
  · exact .error (.badNaming ..)
  · exact .error (.unmatchedReference ..)

theorem ClassMatches.failsOnly_ofClass :
    FailsOnly (MatchingFault relationships cls) (ofClass classes relationships cls) := by
  refine .bind_of_ok (Layout.failsOnly_ofClass cls) fun layout laid => ?_
  refine .bind (.mapM fun entry listed => ?_) fun _ => .bind (.mapM fun entry listed => ?_) fun _ => .ok _
  · have held := Table.get?_eq_some_iff.mpr listed
    obtain ⟨name, member⟩ := List.exists_mem_of_ne_nil _ ((Layout.isFilled_ofClass laid).1 _ _ held)
    obtain ⟨attr, owned, _, formalizes⟩ := (Layout.mem_inclusion_iff laid).mp (by
      rw [Layout.listedFor, held]
      exact member)
    exact failsOnly_matchOver sound known laid owned (.inl formalizes)
  · have held := Table.get?_eq_some_iff.mpr listed
    obtain ⟨name, member⟩ := List.exists_mem_of_ne_nil _ ((Layout.isFilled_ofClass laid).2 _ _ held)
    obtain ⟨attr, owned, _, chooses⟩ := (Layout.mem_unionInclusion_iff laid).mp (by
      rw [Layout.listedFor, held]
      exact member)
    exact failsOnly_matchOver sound known laid owned (.inr chooses)

end Matching

/-- Where matching fails, something is wrong with a class. -/
theorem References.failsOnly_ofClasses (sound : WellFormed relationships classes) :
    FailsOnly (fun failure => ∃ cls, classes.get? cls.name = some cls ∧ MatchingFault relationships cls failure)
      (ofClasses relationships classes) := by
  refine .bind (.mapM fun cls listed => ?_) fun _ => .ok _
  obtain ⟨name, held⟩ := Table.mem_values_iff.mp listed
  have known : classes.get? cls.name = some cls := by rw [sound.className _ _ held, held]
  exact (ClassMatches.failsOnly_ofClass sound known).mono fun _ fault => ⟨cls, known, fault⟩

end ClassModel
