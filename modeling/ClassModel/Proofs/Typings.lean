import ClassModel.Proofs.Slots
import ClassModel.Proofs.TypeAssignments
import ClassModel.Proofs.TypeTables

/-! # What types a model has

The types of a model are determined by its references and declarations: every attribute has the
scalars that its set of equals declares, or those of the sets that can be chosen instead. A model has
types exactly if what is declared agrees with that.
-/

namespace ClassModel

namespace References

section Specification

variable (classes : Table Name Resolved.Class) (references : References)

/-- What an attribute declares, or one that equals it. -/
def DeclaredBy {α : Type} (view : Resolved.Attribute → Option α) (key : SlotKey) (value : α) : Prop :=
  ∃ other attr, references.Equal key other ∧ slotAttribute? classes other = some attr ∧
    view attr = some value

/-- A scalar that an attribute or one that equals it declares. -/
def DeclaresScalar (key : SlotKey) (scalar : Name) : Prop :=
  references.DeclaredBy classes (·.scalar) key scalar

/-- The sorted member list that an attribute or one that equals it declares. -/
def DeclaresUnion (key : SlotKey) (members : NameSet) : Prop :=
  references.DeclaredBy classes (fun attr => attr.union.map .ofList) key members

/-- The scalars that an attribute has of itself: the members that are declared for it, else the
declared scalar. -/
def Declares (key : SlotKey) (name : Name) : Prop :=
  (∃ members, references.DeclaresUnion classes key members ∧ name ∈ members) ∨
    (∀ members, references.DeclaresUnion classes key members → members.isEmpty = true) ∧
      references.DeclaresScalar classes key name

/-- Whether an attribute or one that equals it has a choice of type. -/
def HasChoices (key : SlotKey) : Prop :=
  ∃ link ∈ references.choiceLinks, references.Equal key link.source

/-- One step from an attribute to one that equals it or is chosen instead. -/
def Leads (first second : SlotKey) : Prop :=
  references.Equal first second ∨
    ∃ link ∈ references.choiceLinks, link.source = first ∧ link.target = second

/-- The closure of an attribute: the scalars of the attributes without choices that it leads to. -/
def Closure (key : SlotKey) (name : Name) : Prop :=
  ∃ leaf, Relation.ReflTransGen references.Leads key leaf ∧ ¬references.HasChoices leaf ∧
    references.Declares classes leaf name

/-- When the declarations of a model agree with the closures of its attributes. -/
structure Consistent : Prop where
  scalars : ∀ key first second, references.DeclaresScalar classes key first →
    references.DeclaresScalar classes key second → first = second
  unions : ∀ key first second, references.DeclaresUnion classes key first →
    references.DeclaresUnion classes key second → first = second
  inhabited : ∀ key, (slotAttribute? classes key).isSome = true → ∃ name, references.Closure classes key name
  listed : ∀ key members, references.DeclaresUnion classes key members → members.isEmpty = false →
    ∀ name, name ∈ members ↔ references.Closure classes key name
  single : ∀ key only, (∀ name, references.Closure classes key name ↔ name = only) →
    ∀ scalar, references.DeclaresScalar classes key scalar → scalar = only
  several : ∀ key first second, references.Closure classes key first →
    references.Closure classes key second → first ≠ second →
    ∀ scalar, references.DeclaresScalar classes key scalar →
      ∃ members, references.DeclaresUnion classes key members ∧ members.isEmpty = false
  aliases : ∀ first second,
    (∀ name, references.Closure classes first name ↔ references.Closure classes second name) →
    (∃ left right, references.Closure classes first left ∧ references.Closure classes first right ∧
      left ≠ right) →
    ∀ known new, references.DeclaresScalar classes first known →
      references.DeclaresScalar classes second new → known = new

/-- What the type table of a model holds: the scalars of all closures, and each closure of several
scalars once, under the name that the attributes with that closure declare. -/
structure Tabled (types : TypeTable) : Prop where
  scalars : ∀ name, name ∈ types.scalars ↔
    ∃ key, (slotAttribute? classes key).isSome = true ∧ references.Closure classes key name
  distinct : (types.unions.map (·.members)).Nodup
  unions : ∀ union, union ∈ types.unions ↔ ∃ (key : SlotKey) (closed : NameSet),
    (slotAttribute? classes key).isSome = true ∧
    (∀ name, name ∈ closed ↔ references.Closure classes key name) ∧
    (∃ first second, first ∈ closed ∧ second ∈ closed ∧ first ≠ second) ∧
    union.members = closed.toList ∧
    ∀ name, union.aliasName = some name ↔ ∃ other,
      (∀ scalar, references.Closure classes other scalar ↔ references.Closure classes key scalar) ∧
        references.DeclaresScalar classes other name

end Specification

end References

/-- A kind of declaration, as a slot has it and as its attribute does. -/
structure SlotView (α : Type) where
  ofSlot : TypeSlot → Option α
  ofAttribute : Resolved.Attribute → Option α
  agree : ∀ cls attr, ofSlot (.ofAttribute cls attr) = ofAttribute attr

def SlotView.scalar : SlotView Name := ⟨(·.scalar), (·.scalar), fun _ _ => rfl⟩

def SlotView.union : SlotView NameSet := ⟨(·.union), fun attr => attr.union.map .ofList, fun _ _ => rfl⟩

namespace TypeSpace

variable {classes : Table Name Resolved.Class} {references : References} {space : TypeSpace}

theorem mem_slotsOf_iff {root : Nat} {slot : TypeSlot} :
    slot ∈ space.slotsOf root ↔ (slot, root) ∈ space.members := by
  simp only [slotsOf, List.mem_map, List.mem_filter, decide_eq_true_eq, Prod.exists, exists_and_right,
    exists_eq_right]

section Declaring

variable {α : Type}

theorem Divides.exists_slot (divides : space.Divides classes references.Equal) {key : SlotKey}
    {attr : Resolved.Attribute} (counts : slotAttribute? classes key = some attr) :
    ∃ cls, space.slots.get? key = some (.ofAttribute cls attr) := by
  obtain ⟨cls, known, found⟩ := Option.bind_eq_some_iff.mp counts
  refine ⟨cls, ?_⟩
  rw [divides.slots, known, Option.bind_some, found, Option.map_some]

theorem Divides.of_slot (divides : space.Divides classes references.Equal) {key : SlotKey}
    {slot : TypeSlot} (found : space.slots.get? key = some slot) :
    ∃ cls attr, slotAttribute? classes key = some attr ∧ TypeSlot.ofAttribute cls attr = slot := by
  rw [divides.slots] at found
  obtain ⟨cls, known, found⟩ := Option.bind_eq_some_iff.mp found
  obtain ⟨attr, found, same⟩ := Option.map_eq_some_iff.mp found
  exact ⟨cls, attr, Option.bind_eq_some_iff.mpr ⟨cls, known, found⟩, same⟩

/-- An attribute that equals one with a slot has a set. -/
theorem Divides.exists_root (divides : space.Divides classes references.Equal) {key other : SlotKey}
    (equal : references.Equal key other) (counts : (slotAttribute? classes other).isSome = true) :
    ∃ root, space.rootOf? key.1 key.2 = some root ∧ space.rootOf? other.1 other.2 = some root := by
  have anchored := (divides.anchored key other equal).trans counts
  obtain ⟨root, located⟩ := Option.isSome_iff_exists.mp ((divides.located key).trans anchored)
  obtain ⟨place, found⟩ := Option.isSome_iff_exists.mp ((divides.located other).trans counts)
  exact ⟨root, located, by rw [found, (divides.related key other root place located found).mpr equal]⟩

/-- Only attributes of the model declare something. -/
theorem Divides.isSome_of_declared (divides : space.Divides classes references.Equal) {key : SlotKey}
    {view : Resolved.Attribute → Option α} {value : α}
    (declared : references.DeclaredBy classes view key value) :
    (slotAttribute? classes key).isSome = true := by
  obtain ⟨other, attr, equal, counts, _⟩ := declared
  rw [divides.anchored key other equal, counts]
  rfl

/-- What the slots of a set declare is what the attributes that equal one of them declare. -/
theorem Divides.declared_iff (divides : space.Divides classes references.Equal) {key : SlotKey}
    {root : Nat} (located : space.rootOf? key.1 key.2 = some root)
    (view : SlotView α) {value : α} :
    (∃ slot ∈ space.slotsOf root, view.ofSlot slot = some value) ↔
      references.DeclaredBy classes view.ofAttribute key value := by
  constructor
  · rintro ⟨slot, listed, declared⟩
    obtain ⟨other, found, place⟩ := mem_members_iff.mp (mem_slotsOf_iff.mp listed)
    obtain ⟨cls, attr, counts, rfl⟩ := divides.of_slot found
    rw [view.agree] at declared
    exact ⟨other, attr, (divides.related key other root root located place).mp rfl, counts, declared⟩
  · rintro ⟨other, attr, equal, counts, declared⟩
    obtain ⟨place, here, found⟩ := divides.exists_root equal (by rw [counts]; rfl)
    rw [located] at here
    cases here
    obtain ⟨cls, entered⟩ := divides.exists_slot counts
    refine ⟨_, mem_slotsOf_iff.mpr (mem_members_iff.mpr ⟨other, entered, found⟩), ?_⟩
    rw [view.agree, declared]

/-- Where equal attributes declare the same, that is the first declaration of their set. -/
theorem Divides.findSome?_eq_some_iff (divides : space.Divides classes references.Equal)
    {key : SlotKey} {root : Nat} (located : space.rootOf? key.1 key.2 = some root) (view : SlotView α)
    (agree : ∀ key first second, references.DeclaredBy classes view.ofAttribute key first →
      references.DeclaredBy classes view.ofAttribute key second → first = second) {value : α} :
    (space.slotsOf root).findSome? view.ofSlot = some value ↔
      references.DeclaredBy classes view.ofAttribute key value := by
  have declared : ∀ {value}, (∃ slot ∈ space.slotsOf root, view.ofSlot slot = some value) ↔
      references.DeclaredBy classes view.ofAttribute key value := divides.declared_iff located view
  constructor
  · exact fun found => declared.mp (List.exists_of_findSome?_eq_some found)
  · intro given
    obtain ⟨slot, listed, own⟩ := declared.mpr given
    cases found : (space.slotsOf root).findSome? view.ofSlot with
    | none =>
      rw [List.findSome?_eq_none_iff.mp found slot listed] at own
      cases own
    | some first =>
      have first := declared.mp (List.exists_of_findSome?_eq_some found)
      rw [agree key _ _ first given]

/-- Every slot declares what is first declared in its set exactly if equal attributes declare the
same. -/
theorem Divides.agree_iff (divides : space.Divides classes references.Equal)
    (view : SlotView α) :
    (∀ slot root, (slot, root) ∈ space.members → ∀ value, view.ofSlot slot = some value →
        (space.slotsOf root).findSome? view.ofSlot = some value) ↔
      ∀ key first second, references.DeclaredBy classes view.ofAttribute key first →
        references.DeclaredBy classes view.ofAttribute key second → first = second := by
  constructor
  · intro same key first second left right
    have ⟨other, attr, equal, counts, _⟩ := left
    obtain ⟨root, located, _⟩ := divides.exists_root equal (by rw [counts]; rfl)
    obtain ⟨slot, listed, declared⟩ := (divides.declared_iff located view).mpr left
    obtain ⟨peer, present, stated⟩ := (divides.declared_iff located view).mpr right
    have earlier := same slot root (mem_slotsOf_iff.mp listed) first declared
    rw [same peer root (mem_slotsOf_iff.mp present) second stated] at earlier
    exact (Option.some.inj earlier).symm
  · intro agree slot root present value declared
    obtain ⟨key, _, located⟩ := mem_members_iff.mp present
    refine (divides.findSome?_eq_some_iff located view agree).mpr ?_
    exact (divides.declared_iff located view).mp ⟨slot, mem_slotsOf_iff.mpr present, declared⟩

end Declaring

theorem deviates_eq_false_iff {slot : TypeSlot} {root : Nat} :
    space.deviates (slot, root) = false ↔
      (∀ scalar, slot.scalar = some scalar → space.scalarOf? root = some scalar) ∧
        ∀ union, slot.union = some union → space.unionOf? root = some union := by
  have same : ∀ {α : Type} [DecidableEq α] (own first : Option α),
      own.any (some · ≠ first) = false ↔ ∀ value, own = some value → first = some value := by
    intro α _ own first
    cases own with
    | none => simp
    | some value => simpa using eq_comm
  rw [deviates, Bool.or_eq_false_iff, same, same]

/-- No slot deviates from its set exactly if equal attributes declare the same. -/
theorem Divides.conflictingRoot?_eq_none_iff (divides : space.Divides classes references.Equal) :
    space.conflictingRoot? = none ↔
      (∀ key first second, references.DeclaresScalar classes key first →
        references.DeclaresScalar classes key second → first = second) ∧
      ∀ key first second, references.DeclaresUnion classes key first →
        references.DeclaresUnion classes key second → first = second := by
  have scalars := divides.agree_iff SlotView.scalar
  have unions := divides.agree_iff SlotView.union
  refine Iff.trans ?_ (and_congr scalars unions)
  have same : space.conflictingRoot? = none ↔
      ∀ member ∈ space.members, space.deviates member = false := by
    simp [conflictingRoot?]
  rw [same]
  constructor
  · intro uniform
    exact ⟨fun slot root present => (deviates_eq_false_iff.mp (uniform (slot, root) present)).1,
      fun slot root present => (deviates_eq_false_iff.mp (uniform (slot, root) present)).2⟩
  · rintro ⟨scalars, unions⟩ ⟨slot, root⟩ present
    exact deviates_eq_false_iff.mpr ⟨scalars slot root present, unions slot root present⟩

section Choosing

theorem mem_foldl_update_iff {pairs : List (Nat × Nat)} {edges : Table Nat (List Nat)} {source target : Nat} :
    target ∈ ((pairs.foldl (fun edges (source, target) => edges.update source [] fun targets =>
        if targets.contains target then targets else targets ++ [target]) edges).get? source).getD [] ↔
      target ∈ (edges.get? source).getD [] ∨ (source, target) ∈ pairs := by
  induction pairs generalizing edges with
  | nil => simp
  | cons pair rest ih =>
    obtain ⟨first, second⟩ := pair
    rw [List.foldl_cons, ih, Table.get?_update, List.mem_cons, Prod.mk.injEq]
    by_cases here : first = source
    · subst here
      rw [if_pos rfl, Option.getD_some, mem_append_unless]
      tauto
    · rw [if_neg here]
      simp [Ne.symm here]

theorem contains_foldl_update_iff {pairs : List (Nat × Nat)} {edges : Table Nat (List Nat)} {source : Nat} :
    (pairs.foldl (fun edges (source, target) => edges.update source [] fun targets =>
        if targets.contains target then targets else targets ++ [target]) edges).contains source = true ↔
      edges.contains source = true ∨ ∃ target, (source, target) ∈ pairs := by
  induction pairs generalizing edges with
  | nil => simp
  | cons pair rest ih =>
    obtain ⟨first, second⟩ := pair
    rw [List.foldl_cons, ih, Table.contains_iff, Table.contains_iff, Table.mem_keys_update]
    simp only [List.mem_cons, Prod.mk.injEq, exists_or, exists_and_left, exists_eq, and_true]
    tauto

/-- The pairs of sets that links choose between. -/
theorem mem_choicePairs_iff {links : List AttributeLink} {source target : Nat} :
    (source, target) ∈ links.filterMap (fun link =>
        (space.rootOf? link.className link.attr).bind fun source =>
          (space.rootOf? link.targetClass link.targetAttr).map (source, ·)) ↔
      ∃ link ∈ links, space.rootOf? link.source.1 link.source.2 = some source ∧
        space.rootOf? link.target.1 link.target.2 = some target := by
  simp only [List.mem_filterMap, Option.bind_eq_some_iff, Option.map_eq_some_iff, Prod.mk.injEq,
    AttributeLink.source, AttributeLink.target]
  refine exists_congr fun link => and_congr_right fun _ => ?_
  constructor
  · rintro ⟨_, first, _, second, rfl, rfl⟩
    exact ⟨first, second⟩
  · rintro ⟨first, second⟩
    exact ⟨source, first, target, second, rfl, rfl⟩

/-- The graph of choices of a model. -/
def choiceGraph (space : TypeSpace) (references : References) : ChoiceGraph :=
  ⟨space.choiceEdges references.choiceLinks, space.declaredTypes⟩

theorem mem_targets_iff {source target : Nat} :
    target ∈ (space.choiceGraph references).targets source ↔
      ∃ link ∈ references.choiceLinks, space.rootOf? link.source.1 link.source.2 = some source ∧
        space.rootOf? link.target.1 link.target.2 = some target := by
  rw [ChoiceGraph.targets, choiceGraph, choiceEdges, mem_foldl_update_iff, mem_choicePairs_iff]
  simp

/-- A set has choices if one of its attributes has. -/
theorem Divides.hasChoices_iff (divides : space.Divides classes references.Equal)
    (anchored : ∀ link ∈ references.choiceLinks, link.IsAnchored classes) {key : SlotKey} {root : Nat}
    (located : space.rootOf? key.1 key.2 = some root) :
    (space.choiceGraph references).hasChoices root = true ↔ references.HasChoices key := by
  rw [ChoiceGraph.hasChoices, choiceGraph, choiceEdges, contains_foldl_update_iff]
  simp only [mem_choicePairs_iff, Table.contains_iff, Table.keys_empty, List.not_mem_nil, false_or]
  constructor
  · rintro ⟨target, link, listed, source, _⟩
    exact ⟨link, listed, (divides.related key link.source root root located source).mp rfl⟩
  · rintro ⟨link, listed, equal⟩
    obtain ⟨source, target⟩ := anchored link listed
    obtain ⟨place, here, found⟩ := divides.exists_root equal source
    rw [located] at here
    cases here
    obtain ⟨far, reached⟩ := Option.isSome_iff_exists.mp ((divides.located link.target).trans target)
    exact ⟨far, link, listed, found, reached⟩

/-- Choices lead from set to set as they do from attribute to attribute. -/
theorem Divides.leads_of_steps (divides : space.Divides classes references.Equal) {key : SlotKey}
    {root leaf : Nat} (located : space.rootOf? key.1 key.2 = some root)
    (way : Relation.ReflTransGen ((space.choiceGraph references).StepOff []) root leaf) :
    ∃ other, Relation.ReflTransGen references.Leads key other ∧
      space.rootOf? other.1 other.2 = some leaf := by
  induction way with
  | refl => exact ⟨key, .refl, located⟩
  | tail _ step ih =>
    obtain ⟨other, way, found⟩ := ih
    obtain ⟨link, listed, source, target⟩ := mem_targets_iff.mp step.1
    have equal := (divides.related other link.source _ _ found source).mp rfl
    exact ⟨link.target, (way.tail (.inl equal)).tail (.inr ⟨link, listed, rfl, rfl⟩), target⟩

theorem Divides.steps_of_leads (divides : space.Divides classes references.Equal)
    (anchored : ∀ link ∈ references.choiceLinks, link.IsAnchored classes) {key other : SlotKey}
    {root : Nat} (located : space.rootOf? key.1 key.2 = some root)
    (way : Relation.ReflTransGen references.Leads key other) :
    ∃ leaf, space.rootOf? other.1 other.2 = some leaf ∧
      Relation.ReflTransGen ((space.choiceGraph references).StepOff []) root leaf := by
  induction way with
  | refl => exact ⟨root, located, .refl⟩
  | @tail last next _ step ih =>
    obtain ⟨leaf, found, way⟩ := ih
    rcases step with equal | ⟨link, listed, rfl, rfl⟩
    · have counts : (slotAttribute? classes last).isSome = true := by
        rw [← divides.located, found]
        rfl
      rw [divides.anchored last next equal] at counts
      obtain ⟨place, here, reached⟩ := divides.exists_root equal counts
      rw [found] at here
      cases here
      exact ⟨leaf, reached, way⟩
    · obtain ⟨far, reached⟩ := Option.isSome_iff_exists.mp
        ((divides.located link.target).trans (anchored link listed).2)
      exact ⟨far, reached, way.tail ⟨mem_targets_iff.mpr ⟨link, listed, found, reached⟩, List.not_mem_nil⟩⟩

end Choosing

theorem mem_declaredTypes_iff {root : Nat} {name : Name} :
    name ∈ space.declaredTypes root ↔
      (∃ members, space.unionOf? root = some members ∧ name ∈ members) ∨
        (∀ members, space.unionOf? root = some members → members.isEmpty = true) ∧
          space.scalarOf? root = some name := by
  unfold declaredTypes
  split
  · rename_i members _ listed
    obtain ⟨given, inhabited⟩ := Option.filter_eq_some_iff.mp listed
    rw [Bool.not_eq_true'] at inhabited
    simp [given, inhabited]
  all_goals
    rename_i absent scalar
    have empty : ∀ members, space.unionOf? root = some members → members.isEmpty = true := by
      simpa using absent
    have none : ¬∃ members, space.unionOf? root = some members ∧ name ∈ members :=
      fun ⟨members, given, present⟩ => NameSet.isEmpty_iff.mp (empty members given) name present
    rw [or_iff_right none, and_iff_right empty, scalar]
  · rw [Option.some_inj]
    exact (NameSet.mem_insert.trans (or_iff_left (NameSet.not_mem_empty name))).trans eq_comm
  · simp

section Closing

variable (divides : space.Divides classes references.Equal)
  (anchored : ∀ link ∈ references.choiceLinks, link.IsAnchored classes)
  (uniform : space.conflictingRoot? = none) {key : SlotKey} {root : Nat}
  (located : space.rootOf? key.1 key.2 = some root)

include divides uniform located

theorem Divides.scalarOf?_eq_some_iff {scalar : Name} :
    space.scalarOf? root = some scalar ↔ references.DeclaresScalar classes key scalar :=
  divides.findSome?_eq_some_iff located .scalar (divides.conflictingRoot?_eq_none_iff.mp uniform).1

theorem Divides.unionOf?_eq_some_iff {members : NameSet} :
    space.unionOf? root = some members ↔ references.DeclaresUnion classes key members :=
  divides.findSome?_eq_some_iff located .union (divides.conflictingRoot?_eq_none_iff.mp uniform).2

/-- The scalars that a set has of itself are those of its attributes. -/
theorem Divides.mem_declaredTypes_iff {name : Name} :
    name ∈ space.declaredTypes root ↔ references.Declares classes key name := by
  rw [TypeSpace.mem_declaredTypes_iff]
  simp only [divides.scalarOf?_eq_some_iff uniform located, divides.unionOf?_eq_some_iff uniform located]
  rfl

include anchored

/-- What a set can be chosen to have is the closure of its attributes. -/
theorem Divides.mem_typesOf_iff {name : Name} :
    name ∈ (space.choiceGraph references).typesOf root ↔ references.Closure classes key name := by
  rw [ChoiceGraph.mem_typesOf_iff]
  constructor
  · rintro ⟨leaf, way, plain, declared⟩
    obtain ⟨other, leads, found⟩ := divides.leads_of_steps located way
    refine ⟨other, leads, ?_, (divides.mem_declaredTypes_iff uniform found).mp declared⟩
    rw [← divides.hasChoices_iff anchored found, plain]
    simp
  · rintro ⟨other, leads, plain, declared⟩
    obtain ⟨leaf, found, way⟩ := divides.steps_of_leads anchored located leads
    refine ⟨leaf, way, ?_, (divides.mem_declaredTypes_iff uniform found).mpr declared⟩
    rwa [← divides.hasChoices_iff anchored found, Bool.not_eq_true] at plain

end Closing

end TypeSpace

end ClassModel
