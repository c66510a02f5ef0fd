import ClassModel.Proofs.Typings

/-! # When a model has types

Types can be given exactly if the declarations are consistent with the closures, and then every
attribute has the type of its closure.
-/

namespace ClassModel

variable {classes : Table Name Resolved.Class} {references : References}

theorem Typing.ofReferences_eq_ok_iff {typing : Typing} :
    ofReferences classes references = .ok typing ↔
      typing.space = TypeSpace.ofReferences classes.values references.typeLinks ∧
        TypeAssignment.ofSpace (.ofReferences classes.values references.typeLinks)
          references.choiceLinks = .ok typing.resolved := by
  obtain ⟨space, resolved⟩ := typing
  simp only [ofReferences, bind_eq_ok_iff, Except.ok.injEq, mk.injEq]
  constructor
  · rintro ⟨_, assigned, rfl, rfl⟩
    exact ⟨rfl, assigned⟩
  · rintro ⟨rfl, assigned⟩
    exact ⟨resolved, assigned, rfl, rfl⟩

/-- The type of a set with what is reached. -/
theorem TypeAssignment.resolution?_eq_some_iff {space : TypeSpace} {graph : ChoiceGraph} {root : Nat}
    {resolution : TypeResolution} :
    resolution? space graph root = some resolution ↔
      (∃ name, name ∈ graph.typesOf root) ∧
        TypeResolution.Agrees (graph.typesOf root) (space.scalarOf? root) (space.unionOf? root) ∧
          resolution = .ofSet (graph.typesOf root) (space.scalarOf? root) := by
  rw [← NameSet.isEmpty_eq_false_iff, resolution?]
  cases (graph.typesOf root).isEmpty with
  | true => simp
  | false => simp [TypeResolution.decide?_eq_some_iff]

namespace TypeSpace

variable {space : TypeSpace} (divides : space.Divides classes references.Equal)
  (anchored : ∀ link ∈ references.choiceLinks, link.IsAnchored classes)
  (uniform : space.conflictingRoot? = none) {key : SlotKey} {root : Nat}
  (located : space.rootOf? key.1 key.2 = some root)

include divides anchored uniform located

/-- The declarations of a set agree with what it reaches where its attributes are consistent. -/
theorem Divides.agrees_of_consistent (consistent : references.Consistent classes) :
    TypeResolution.Agrees ((space.choiceGraph references).typesOf root) (space.scalarOf? root)
      (space.unionOf? root) := by
  have closure : ∀ name, name ∈ (space.choiceGraph references).typesOf root ↔
      references.Closure classes key name :=
    fun name => divides.mem_typesOf_iff anchored uniform located
  have counts : (slotAttribute? classes key).isSome = true := by
    rw [← divides.located, located]
    rfl
  refine ⟨fun members given inhabited => ?_, fun only one scalar given => ?_, fun several scalar given => ?_⟩
  · have declared := (divides.unionOf?_eq_some_iff uniform located).mp given
    refine NameSet.ext fun name => ?_
    rw [closure, consistent.listed key members declared inhabited]
  · have declared := (divides.scalarOf?_eq_some_iff uniform located).mp given
    refine consistent.single key only (fun name => ?_) scalar declared
    rw [← closure, NameSet.toList_eq_singleton_iff.mp one]
  · have declared := (divides.scalarOf?_eq_some_iff uniform located).mp given
    obtain ⟨name, reached⟩ := consistent.inhabited key counts
    obtain ⟨first, second, left, right, different⟩ :=
      (NameSet.exists_two_iff ⟨name, (closure name).mpr reached⟩).mp several
    obtain ⟨members, listed, inhabited⟩ := consistent.several key first second ((closure first).mp left)
      ((closure second).mp right) different scalar declared
    exact ⟨members, (divides.unionOf?_eq_some_iff uniform located).mpr listed, inhabited⟩

end TypeSpace

/-- What holds of the sets of a model that are typed. -/
structure Typing.Settles (classes : Table Name Resolved.Class) (references : References)
    (typing : Typing) : Prop where
  divides : typing.space.Divides classes references.Equal
  anchored : ∀ link ∈ references.choiceLinks, link.IsAnchored classes
  uniform : typing.space.conflictingRoot? = none
  typed : ∀ root ∈ typing.space.roots,
    (∃ name, name ∈ (typing.space.choiceGraph references).typesOf root) ∧
    TypeResolution.Agrees ((typing.space.choiceGraph references).typesOf root)
      (typing.space.scalarOf? root) (typing.space.unionOf? root) ∧
    typing.resolved.get? root = some (.ofSet ((typing.space.choiceGraph references).typesOf root)
      (typing.space.scalarOf? root))

/-- What a typing says of the attributes of a model: each has the type of its closure, under the
scalar that it declares as alias if there are several. -/
def Typing.Fits (classes : Table Name Resolved.Class) (references : References) (typing : Typing) : Prop :=
  ∀ key, (slotAttribute? classes key).isSome = true → ∃ (closed : NameSet) (scalar : Option Name),
    (∃ name, name ∈ closed) ∧
    (∀ name, name ∈ closed ↔ references.Closure classes key name) ∧
    (∀ name, scalar = some name ↔ references.DeclaresScalar classes key name) ∧
    typing.resolution? key.1 key.2 = some (.ofSet closed scalar)

namespace Typing

variable {typing : Typing}

theorem Settles.fits (settles : typing.Settles classes references) : typing.Fits classes references := by
  intro key counts
  obtain ⟨root, located⟩ := Option.isSome_iff_exists.mp ((settles.divides.located key).trans counts)
  obtain ⟨inhabited, _, found⟩ := settles.typed root ((settles.divides.roots root).mpr ⟨key, located⟩)
  refine ⟨_, _, inhabited, fun name => settles.divides.mem_typesOf_iff settles.anchored settles.uniform located,
    fun name => settles.divides.scalarOf?_eq_some_iff settles.uniform located, ?_⟩
  rw [resolution?, located, Option.bind_some, found]

/-- Where the sets are typed and the aliases are consistent, so are the declarations. -/
theorem Settles.consistent (settles : typing.Settles classes references)
    (aliases : ∀ first second,
      (∀ name, references.Closure classes first name ↔ references.Closure classes second name) →
      (∃ left right, references.Closure classes first left ∧ references.Closure classes first right ∧
        left ≠ right) →
      ∀ known new, references.DeclaresScalar classes first known →
        references.DeclaresScalar classes second new → known = new) :
    references.Consistent classes := by
  obtain ⟨divides, anchored, uniform, typed⟩ := settles
  obtain ⟨scalars, unions⟩ := divides.conflictingRoot?_eq_none_iff.mp uniform
  -- everything that is said of an attribute is found at its set
  have located : ∀ key, (slotAttribute? classes key).isSome = true → ∃ root,
      typing.space.rootOf? key.1 key.2 = some root ∧ root ∈ typing.space.roots := by
    intro key counts
    obtain ⟨root, found⟩ := Option.isSome_iff_exists.mp ((divides.located key).trans counts)
    exact ⟨root, found, (divides.roots root).mpr ⟨key, found⟩⟩
  refine ⟨scalars, unions, ?_, ?_, ?_, ?_, aliases⟩
  · intro key counts
    obtain ⟨root, found, listed⟩ := located key counts
    obtain ⟨⟨name, present⟩, _⟩ := typed root listed
    exact ⟨name, (divides.mem_typesOf_iff anchored uniform found).mp present⟩
  · intro key members declared inhabited name
    obtain ⟨root, found, listed⟩ := located key (divides.isSome_of_declared declared)
    obtain ⟨_, agrees, _⟩ := typed root listed
    rw [← divides.mem_typesOf_iff anchored uniform found]
    rw [agrees.listed members ((divides.unionOf?_eq_some_iff uniform found).mpr declared) inhabited]
  · intro key only one scalar declared
    obtain ⟨root, found, listed⟩ := located key (divides.isSome_of_declared declared)
    obtain ⟨_, agrees, _⟩ := typed root listed
    refine agrees.single only ?_ scalar ((divides.scalarOf?_eq_some_iff uniform found).mpr declared)
    refine NameSet.toList_eq_singleton_iff.mpr fun name => ?_
    rw [divides.mem_typesOf_iff anchored uniform found, one]
  · intro key first second left right different scalar declared
    obtain ⟨root, found, listed⟩ := located key (divides.isSome_of_declared declared)
    obtain ⟨inhabited, agrees, _⟩ := typed root listed
    have reached : ∀ name, name ∈ (typing.space.choiceGraph references).typesOf root ↔
        references.Closure classes key name :=
      fun name => divides.mem_typesOf_iff anchored uniform found
    have several := (NameSet.exists_two_iff inhabited).mpr
      ⟨first, second, (reached first).mpr left, (reached second).mpr right, different⟩
    obtain ⟨members, given, whole⟩ := agrees.several several scalar
      ((divides.scalarOf?_eq_some_iff uniform found).mpr declared)
    exact ⟨members, (divides.unionOf?_eq_some_iff uniform found).mp given, whole⟩

/-- The types in use are those of the attributes. -/
theorem mem_uses_iff (named : ∀ name cls, classes.get? name = some cls → cls.name = name)
    {use : TypeResolution} :
    use ∈ typing.uses classes.values ↔
      ∃ key, (slotAttribute? classes key).isSome = true ∧ typing.resolution? key.1 key.2 = some use := by
  simp only [uses, List.mem_flatMap, List.mem_filterMap, isSome_slotAttribute?_iff]
  constructor
  · rintro ⟨cls, present, attr, owned, found⟩
    obtain ⟨name, known⟩ := Table.mem_values_iff.mp present
    rw [← named name cls known] at known
    exact ⟨(cls.name, attr.name), ⟨cls, known, attr, owned, rfl⟩, found⟩
  · rintro ⟨⟨className, _⟩, ⟨cls, known, attr, owned, rfl⟩, found⟩
    rw [← named className cls known] at found
    exact ⟨cls, Table.mem_values_of_get? known, attr, owned, found⟩

/-- The types in use are compatible exactly if the aliases are consistent. -/
theorem Fits.compatible_iff (fits : typing.Fits classes references)
    (named : ∀ name cls, classes.get? name = some cls → cls.name = name)
    (counts : ∀ key name, references.DeclaresScalar classes key name →
      (slotAttribute? classes key).isSome = true) :
    (∀ first ∈ typing.uses classes.values, ∀ second ∈ typing.uses classes.values,
        first.Compatible second) ↔
      ∀ first second,
        (∀ name, references.Closure classes first name ↔ references.Closure classes second name) →
        (∃ left right, references.Closure classes first left ∧ references.Closure classes first right ∧
          left ≠ right) →
        ∀ known new, references.DeclaresScalar classes first known →
          references.DeclaresScalar classes second new → known = new := by
  constructor
  · intro compatible first second same several known new earlier later
    obtain ⟨closed, scalar, _, closure, declared, found⟩ := fits first (counts first known earlier)
    obtain ⟨others, stood, _, reached, stated, entered⟩ := fits second (counts second new later)
    have equal : others = closed := NameSet.ext fun name => by rw [reached, closure, same]
    subst equal
    obtain ⟨left, right, leftReached, rightReached, different⟩ := several
    have many : ∀ only, others.toList ≠ [only] :=
      (NameSet.exists_two_iff ⟨left, (closure left).mpr leftReached⟩).mpr
        ⟨left, right, (closure left).mpr leftReached, (closure right).mpr rightReached, different⟩
    rw [TypeResolution.ofSet_of_several many] at found entered
    exact compatible _ ((mem_uses_iff named).mpr ⟨first, counts first known earlier, found⟩)
      _ ((mem_uses_iff named).mpr ⟨second, counts second new later, entered⟩) others.toList rfl rfl
      known new ((declared known).mpr earlier) ((stated new).mpr later)
  · intro aliases first firstUsed second secondUsed members left right known new earlier later
    obtain ⟨key, keyCounts, found⟩ := (mem_uses_iff named).mp firstUsed
    obtain ⟨other, otherCounts, entered⟩ := (mem_uses_iff named).mp secondUsed
    obtain ⟨closed, scalar, inhabited, closure, declared, typed⟩ := fits key keyCounts
    obtain ⟨others, stood, _, reached, stated, given⟩ := fits other otherCounts
    rw [found, Option.some_inj] at typed
    rw [entered, Option.some_inj] at given
    subst typed given
    obtain ⟨several, listed, aliased⟩ := TypeResolution.ofSet_type_eq_union left
    obtain ⟨_, same, otherAliased⟩ := TypeResolution.ofSet_type_eq_union right
    rw [aliased] at earlier
    rw [otherAliased] at later
    obtain ⟨one, two, oneIn, twoIn, different⟩ := (NameSet.exists_two_iff inhabited).mp several
    refine aliases key other (fun name => ?_) ⟨one, two, (closure one).mp oneIn, (closure two).mp twoIn,
      different⟩ known new ((declared known).mp earlier) ((stated new).mp later)
    rw [← closure, ← reached, NameSet.mem_iff, NameSet.mem_iff, listed, same]

end Typing

section Typing

variable {relationships : Table Rnum Resolved.Relationship} (sound : WellFormed relationships classes)
  (matched : References.ofClasses relationships classes = .ok references)

include sound matched

/-- Whatever is typed is settled. -/
theorem Typing.settles {typing : Typing} (typed : ofReferences classes references = .ok typing) :
    typing.Settles classes references := by
  obtain ⟨divided, assigned⟩ := ofReferences_eq_ok_iff.mp typed
  have divides := TypeSpace.ofReferences_divides sound matched
  rw [← divided] at divides assigned
  obtain ⟨runs, known⟩ := TypeAssignment.ofSpace_spec divides.owned (rfl : typing.space.choiceGraph references = _)
  obtain ⟨uniform, types⟩ := runs.mp ⟨_, assigned⟩
  refine ⟨divides, fun link listed => References.links_anchored sound matched (.inr listed), uniform, ?_⟩
  intro root listed
  obtain ⟨resolution, found⟩ := Option.isSome_iff_exists.mp (types root listed)
  obtain ⟨inhabited, agrees, rfl⟩ := TypeAssignment.resolution?_eq_some_iff.mp found
  exact ⟨inhabited, agrees, by rw [known _ assigned root listed, found]⟩

/-- Consistent attributes are typed. -/
theorem Typing.exists_of_consistent (consistent : references.Consistent classes) :
    ∃ typing, ofReferences classes references = .ok typing := by
  let space := TypeSpace.ofReferences classes.values references.typeLinks
  have divides : space.Divides classes references.Equal := TypeSpace.ofReferences_divides sound matched
  have anchored : ∀ link ∈ references.choiceLinks, link.IsAnchored classes :=
    fun link listed => References.links_anchored sound matched (.inr listed)
  have uniform : space.conflictingRoot? = none :=
    divides.conflictingRoot?_eq_none_iff.mpr ⟨consistent.scalars, consistent.unions⟩
  have runs := (TypeAssignment.ofSpace_spec divides.owned (rfl : space.choiceGraph references = _)).1
  obtain ⟨resolved, assigned⟩ := runs.mpr ⟨uniform, fun root listed => by
    obtain ⟨key, located⟩ := (divides.roots root).mp listed
    have counts : (slotAttribute? classes key).isSome = true := by
      rw [← divides.located, located]
      rfl
    obtain ⟨name, reached⟩ := consistent.inhabited key counts
    have inhabited := (divides.mem_typesOf_iff anchored uniform located).mpr reached
    have agrees := divides.agrees_of_consistent anchored uniform located consistent
    exact Option.isSome_iff_exists.mpr
      ⟨_, TypeAssignment.resolution?_eq_some_iff.mpr ⟨⟨name, inhabited⟩, agrees, rfl⟩⟩⟩
  exact ⟨⟨space, resolved⟩, ofReferences_eq_ok_iff.mpr ⟨rfl, assigned⟩⟩

/-- A model has types exactly if it is consistent. -/
theorem Typing.exists_typeTable_iff :
    (∃ typing types, ofReferences classes references = .ok typing ∧
        typing.typeTable classes.values = .ok types) ↔ references.Consistent classes := by
  have compatible_iff : ∀ typing, ofReferences classes references = .ok typing → _ :=
    fun typing typed => (settles sound matched typed).fits.compatible_iff sound.className
      fun key name => (settles sound matched typed).divides.isSome_of_declared
  constructor
  · rintro ⟨typing, types, typed, tabled⟩
    refine (settles sound matched typed).consistent ((compatible_iff typing typed).mp ?_)
    exact typeTable_spec.1.mp ⟨types, tabled⟩
  · intro consistent
    obtain ⟨typing, typed⟩ := exists_of_consistent sound matched consistent
    obtain ⟨types, tabled⟩ := typeTable_spec.1.mpr ((compatible_iff typing typed).mpr consistent.aliases)
    exact ⟨typing, types, typed, tabled⟩

end Typing

/-- The types in use that are one union are those of the attributes with one closure of several
scalars. -/
theorem Typing.Fits.union_used_iff {typing : Typing} (fits : typing.Fits classes references)
    (named : ∀ name cls, classes.get? name = some cls → cls.name = name) {closed : NameSet}
    (several : ∃ first second, first ∈ closed ∧ second ∈ closed ∧ first ≠ second)
    (holds : Option Name → Prop) :
    (∃ use ∈ typing.uses classes.values, use.type = .union closed.toList ∧ holds use.aliasName) ↔
      ∃ key scalar, (slotAttribute? classes key).isSome = true ∧
        (∀ name, name ∈ closed ↔ references.Closure classes key name) ∧
        (∀ name, scalar = some name ↔ references.DeclaresScalar classes key name) ∧ holds scalar := by
  constructor
  · rintro ⟨use, used, union, held⟩
    obtain ⟨key, counts, found⟩ := (mem_uses_iff named).mp used
    obtain ⟨others, scalar, _, closure, declared, typed⟩ := fits key counts
    rw [found, Option.some_inj] at typed
    subst typed
    obtain ⟨_, listed, aliased⟩ := TypeResolution.ofSet_type_eq_union union
    refine ⟨key, scalar, counts, fun name => ?_, declared, aliased ▸ held⟩
    rw [← closure, NameSet.mem_iff, NameSet.mem_iff, listed]
  · rintro ⟨key, scalar, counts, closure, declared, held⟩
    obtain ⟨others, stood, inhabited, reached, stated, found⟩ := fits key counts
    have same : others = closed := NameSet.ext fun name => (reached name).trans (closure name).symm
    have alike : stood = scalar := Option.ext fun name => (stated name).trans (declared name).symm
    subst same alike
    rw [TypeResolution.ofSet_of_several ((NameSet.exists_two_iff inhabited).mpr several)] at found
    exact ⟨_, (mem_uses_iff named).mpr ⟨key, counts, found⟩, rfl, held⟩

section Tabling

variable {typing : Typing} (fits : typing.Fits classes references)
  (named : ∀ name cls, classes.get? name = some cls → cls.name = name)
  (counts : ∀ key name, references.DeclaresScalar classes key name →
    (slotAttribute? classes key).isSome = true)
  {types : TypeTable} (records : types.Records (typing.uses classes.values))

include fits named counts records

/-- A tabled union goes by the scalars that attributes with its closure declare. -/
theorem Typing.Fits.aliasName_iff {union : UnionType} (present : union ∈ types.unions) {key : SlotKey}
    {closed : NameSet} (closure : ∀ name, name ∈ closed ↔ references.Closure classes key name)
    (several : ∃ first second, first ∈ closed ∧ second ∈ closed ∧ first ≠ second)
    (listed : union.members = closed.toList) (name : Name) :
    union.aliasName = some name ↔ ∃ other,
      (∀ scalar, references.Closure classes other scalar ↔ references.Closure classes key scalar) ∧
        references.DeclaresScalar classes other name := by
  have used := fits.union_used_iff named several (· = some name)
  rw [records.aliases union present, listed, used]
  constructor
  · rintro ⟨other, scalar, _, reached, declared, given⟩
    exact ⟨other, fun scalar => (reached scalar).symm.trans (closure scalar), (declared name).mp given⟩
  · rintro ⟨other, same, declares⟩
    obtain ⟨_, scalar, _, _, declared, _⟩ := fits other (counts other name declares)
    exact ⟨other, scalar, counts other name declares, fun scalar => (closure scalar).trans (same scalar).symm,
      declared, (declared name).mpr declares⟩

/-- A table of the types in use holds the closures. -/
theorem Typing.Fits.tabled : references.Tabled classes types := by
  refine ⟨fun name => ?_, records.distinct, fun union => ⟨fun present => ?_, ?_⟩⟩
  · rw [records.scalars]
    constructor
    · rintro ⟨use, used, mentions⟩
      obtain ⟨key, located, found⟩ := (mem_uses_iff named).mp used
      obtain ⟨closed, scalar, _, closure, _, typed⟩ := fits key located
      rw [found, Option.some_inj] at typed
      subst typed
      rw [TypeResolution.ofSet, AttributeType.names_ofSet] at mentions
      exact ⟨key, located, (closure name).mp mentions⟩
    · rintro ⟨key, located, reached⟩
      obtain ⟨closed, scalar, _, closure, _, typed⟩ := fits key located
      refine ⟨_, (mem_uses_iff named).mpr ⟨key, located, typed⟩, ?_⟩
      rw [TypeResolution.ofSet, AttributeType.names_ofSet]
      exact (closure name).mpr reached
  · obtain ⟨use, used, shown⟩ := (records.unions _).mp (List.mem_map_of_mem present)
    obtain ⟨key, located, found⟩ := (mem_uses_iff named).mp used
    obtain ⟨closed, scalar, inhabited, closure, _, typed⟩ := fits key located
    rw [found, Option.some_inj] at typed
    subst typed
    obtain ⟨many, listed, _⟩ := TypeResolution.ofSet_type_eq_union shown
    have several := (NameSet.exists_two_iff inhabited).mp many
    exact ⟨key, closed, located, closure, several, listed.symm,
      fits.aliasName_iff named counts records present closure several listed.symm⟩
  · rintro ⟨key, closed, located, closure, several, listed, aliased⟩
    obtain ⟨others, scalar, _, reached, declared, _⟩ := fits key located
    obtain ⟨use, used, shown, _⟩ := (fits.union_used_iff named several fun _ => True).mpr
      ⟨key, scalar, located, closure, declared, trivial⟩
    obtain ⟨held, present, same⟩ := List.mem_map.mp ((records.unions _).mpr ⟨use, used, shown⟩)
    have alike : held.aliasName = union.aliasName := Option.ext fun name =>
      (fits.aliasName_iff named counts records present closure several same name).trans (aliased name).symm
    obtain ⟨members, aliasName⟩ := union
    obtain ⟨_, _⟩ := held
    simp only at same listed alike
    subst same listed alike
    exact present

end Tabling

/-- The attributes of an annotated class have the types that they resolve to. -/
theorem Typing.Fits.annotate {typing : Typing} (fits : typing.Fits classes references)
    {cls : Resolved.Class} (known : classes.get? cls.name = some cls) {attr : Resolved.Attribute}
    (owned : attr ∈ (typing.annotate cls).allAttributes) :
    ∃ closed : NameSet, (∀ name, name ∈ closed ↔ references.Closure classes (cls.name, attr.name) name) ∧
      attr.type = some (.ofSet closed) := by
  rw [annotate_eq] at owned
  simp only [Resolved.Class.mapAttributes, Resolved.Class.allAttributes, ← List.map_append] at owned
  obtain ⟨original, listed, rfl⟩ := List.mem_map.mp owned
  obtain ⟨closed, scalar, _, closure, _, found⟩ := fits (cls.name, original.name)
    (isSome_slotAttribute?_iff.mpr ⟨cls, known, original, listed, rfl⟩)
  refine ⟨closed, closure, ?_⟩
  dsimp only at found ⊢
  rw [found]
  rfl

namespace Sample

end Sample

end ClassModel
