import ClassModel.Analysis.TypeSlots
import ClassModel.Proofs.DisjointSets
import ClassModel.Proofs.Lasting

/-! # Slots and their sets

A slot stands for the first attribute record of its name in its class. The ends of every link have
slots, so two slots belong to one set of equals exactly if they are related by the least equivalence
with the links.
-/

namespace ClassModel

/-- The attribute record that counts for a slot. -/
def slotAttribute? (classes : Table Name Resolved.Class) (key : SlotKey) : Option Resolved.Attribute :=
  (classes.get? key.1).bind (·.attribute? key.2)

namespace AttributeLink

/-- The referring attribute. -/
def source (link : AttributeLink) : SlotKey := (link.className, link.attr)

/-- The attribute referred to. -/
def target (link : AttributeLink) : SlotKey := (link.targetClass, link.targetAttr)

/-- Whether both ends of a link are attributes of the model. -/
def IsAnchored (classes : Table Name Resolved.Class) (link : AttributeLink) : Prop :=
  (slotAttribute? classes link.source).isSome = true ∧ (slotAttribute? classes link.target).isSome = true

end AttributeLink

section Anchoring

theorem Resolved.Class.isSome_attribute?_iff {cls : Class} {name : Name} :
    (cls.attribute? name).isSome = true ↔ ∃ attr ∈ cls.allAttributes, attr.name = name := by
  simp [attribute?, List.find?_isSome]

variable {classes : Table Name Resolved.Class} {relationships : Table Rnum Resolved.Relationship}

theorem isSome_slotAttribute?_iff {key : SlotKey} :
    (slotAttribute? classes key).isSome = true ↔
      ∃ cls, classes.get? key.1 = some cls ∧ ∃ attr ∈ cls.allAttributes, attr.name = key.2 := by
  unfold slotAttribute?
  cases classes.get? key.1 <;> simp [Resolved.Class.isSome_attribute?_iff]

/-- A member of an identifier group is an attribute of its class. -/
theorem WellFormed.isSome_of_member (sound : WellFormed relationships classes) {name : Name}
    {cls : Resolved.Class} (known : classes.get? name = some cls) {group : IdGroup}
    {members : List Name} (defined : cls.identifiers.members? group = some members) {member : Name}
    (listed : member ∈ members) : (slotAttribute? classes (name, member)).isSome = true := by
  obtain ⟨attr, owned, named⟩ :=
    List.mem_map.mp (sound.membersListed _ _ known _ _ defined member listed)
  exact isSome_slotAttribute?_iff.mpr ⟨cls, known, attr, List.mem_append_left _ owned, named⟩

/-- The links of a complete match are anchored. -/
theorem ClassMatches.IsComplete.isAnchored (sound : WellFormed relationships classes)
    {cls : Resolved.Class} (known : classes.get? cls.name = some cls) {rnum : Rnum}
    {attrs : List Name} {partition : Partition} {sides : List SideMatch}
    (complete : IsComplete classes relationships cls.name rnum attrs partition sides)
    (owned : ∀ name ∈ attrs, ∃ attr ∈ cls.allAttributes, attr.name = name) {link : AttributeLink}
    (linked : link ∈ sides.flatMap (linksOf cls.name rnum)) : link.IsAnchored classes := by
  obtain ⟨side, present, linked⟩ := List.mem_flatMap.mp linked
  obtain ⟨⟨identifier, attr⟩, assigned, rfl⟩ := List.mem_map.mp linked
  obtain ⟨referred, members, found, defined, keys, values⟩ := complete.of_mem present
  have entry := Table.get?_eq_some_iff.mpr assigned
  refine ⟨isSome_slotAttribute?_iff.mpr ⟨cls, known, ?_⟩, ?_⟩
  · exact owned attr (values attr (Table.mem_values_of_get? entry))
  · exact sound.isSome_of_member found defined (keys identifier (Table.mem_keys_of_get? entry))

/-- The links of the matches of a class are anchored. -/
theorem ClassMatches.links_anchored (sound : WellFormed relationships classes)
    {cls : Resolved.Class} (known : classes.get? cls.name = some cls) {found : ClassMatches}
    (matched : ofClass classes relationships cls = .ok found) {rnum : Rnum} {sides : List SideMatch}
    (present : (rnum, sides) ∈ found.references ∨ (rnum, sides) ∈ found.choices) {link : AttributeLink}
    (linked : link ∈ sides.flatMap (linksOf found.className rnum)) : link.IsAnchored classes := by
  rw [className_of_ofClass matched] at linked
  rcases present with present | present
  · obtain ⟨_, attrs, partition, complete, formalizes⟩ :=
      references_complete sound known matched present
    refine complete.isAnchored sound known (fun name inUse => ?_) linked
    obtain ⟨attr, owned, same, _⟩ := formalizes name inUse
    exact ⟨attr, owned, same⟩
  · obtain ⟨attrs, partition, complete, chooses⟩ := choices_complete sound matched present
    refine complete.isAnchored sound known (fun name inUse => ?_) linked
    obtain ⟨attr, owned, same, _⟩ := chooses name inUse
    exact ⟨attr, owned, same⟩

end Anchoring

namespace References

/-- Two attributes that have one type: a record maps the one to the other, or an ignored attribute
stands in for the other. -/
inductive Linked (references : References) : SlotKey → SlotKey → Prop
  | recorded {referred : Name} {rnum : Rnum} {reference : Reference} {data : Formalization}
      {attr identifier : Name}
      (stored : references.referential.reference? referred rnum = some reference)
      (listed : data ∈ reference.all) (mapped : data.attrMap.get? attr = some identifier) :
      Linked references (data.formalizer, attr) (referred, identifier)
  | ignored {link : AttributeLink} (listed : link ∈ references.ignoredLinks) :
      Linked references link.source link.target

/-- The least equivalence that relates linked attributes. -/
abbrev Equal (references : References) : SlotKey → SlotKey → Prop :=
  Relation.EqvGen references.Linked

end References

theorem ReferentialTable.mem_records_iff {table : ReferentialTable} {referred : Name} {rnum : Rnum}
    {data : Formalization} :
    (referred, rnum, data) ∈ table.records ↔
      ∃ reference, table.reference? referred rnum = some reference ∧ data ∈ reference.all := by
  simp only [records, reference?, forClass?, List.mem_flatMap, List.mem_map, Prod.exists,
    Option.bind_eq_some_iff, Table.get?_eq_some_iff, Prod.mk.injEq]
  constructor
  · rintro ⟨_, references, listed, _, reference, stored, _, present, rfl, rfl, rfl⟩
    exact ⟨reference, ⟨references, listed, stored⟩, present⟩
  · rintro ⟨reference, ⟨references, listed, stored⟩, present⟩
    exact ⟨referred, references, listed, rnum, reference, stored, data, present, rfl, rfl, rfl⟩

namespace References

/-- The links by which slots are joined relate just the linked attributes. -/
theorem linked_iff {references : References} {first second : SlotKey} :
    references.Linked first second ↔
      ∃ link ∈ references.typeLinks, link.source = first ∧ link.target = second := by
  simp only [typeLinks, List.mem_append, List.mem_flatMap, List.mem_map, Prod.exists]
  constructor
  · rintro (⟨stored, listed, mapped⟩ | listed)
    · refine ⟨_, .inl ⟨_, _, _, ReferentialTable.mem_records_iff.mpr ⟨_, stored, listed⟩, _, _,
        Table.get?_eq_some_iff.mp mapped, rfl⟩, rfl, rfl⟩
    · exact ⟨_, .inr listed, rfl, rfl⟩
  · rintro ⟨_, ⟨referred, rnum, data, present, attr, identifier, mapped, rfl⟩ | listed, rfl, rfl⟩
    · obtain ⟨reference, stored, listed⟩ := ReferentialTable.mem_records_iff.mp present
      exact .recorded stored listed (Table.get?_eq_some_iff.mpr mapped)
    · exact .ignored listed

/-- Every link is that of a match of its class. -/
theorem exists_of_link {classes : Table Name Resolved.Class}
    {relationships : Table Rnum Resolved.Relationship} (sound : WellFormed relationships classes)
    {found : List ClassMatches}
    (runs : List.Forall₂ (fun cls found => ClassMatches.ofClass classes relationships cls = .ok found)
      classes.values found) {link : AttributeLink}
    (linked : link ∈ (ofMatches relationships classes.keys found).typeLinks ∨
      link ∈ (ofMatches relationships classes.keys found).choiceLinks) :
    ∃ matching ∈ found, ∃ rnum sides,
      ((rnum, sides) ∈ matching.references ∨ (rnum, sides) ∈ matching.choices) ∧
      link ∈ sides.flatMap (ClassMatches.linksOf matching.className rnum) := by
  rcases linked with linked | chosen
  · rcases List.mem_append.mp linked with recorded | ignored
    · obtain ⟨⟨referred, rnum, data⟩, stored, linked⟩ := List.mem_flatMap.mp recorded
      obtain ⟨⟨attr, identifier⟩, mapped, rfl⟩ := List.mem_map.mp linked
      obtain ⟨matching, listed, sides, present, side, sideListed, rfl, rfl⟩ := exists_of_mem_recordsAt sound
        runs (ReferentialTable.mem_recordsAt_iff.mpr (ReferentialTable.mem_records_iff.mp stored))
      have assigned := (ClassMatches.assigned_of_attrMap (Table.get?_eq_some_iff.mpr mapped)).1
      exact ⟨matching, listed, rnum, sides, .inl present, List.mem_flatMap.mpr
        ⟨side, sideListed, List.mem_map.mpr ⟨_, Table.get?_eq_some_iff.mp assigned, rfl⟩⟩⟩
    · obtain ⟨matching, listed, linked⟩ := List.mem_flatMap.mp ignored
      obtain ⟨⟨rnum, sides⟩, present, linked⟩ := List.mem_flatMap.mp (List.mem_filter.mp linked).1
      exact ⟨matching, listed, rnum, sides, .inl present, linked⟩
  · obtain ⟨matching, listed, linked⟩ := List.mem_flatMap.mp chosen
    obtain ⟨⟨rnum, sides⟩, present, linked⟩ := List.mem_flatMap.mp linked
    exact ⟨matching, listed, rnum, sides, .inr present, linked⟩

/-- Every link of a model is anchored. -/
theorem links_anchored {relationships : Table Rnum Resolved.Relationship}
    {classes : Table Name Resolved.Class} (sound : WellFormed relationships classes)
    {references : References} (success : ofClasses relationships classes = .ok references)
    {link : AttributeLink} (listed : link ∈ references.typeLinks ∨ link ∈ references.choiceLinks) :
    link.IsAnchored classes := by
  obtain ⟨found, runs, same⟩ := ofClasses_eq_ok_iff.mp success
  rw [← same] at listed
  obtain ⟨matching, member, rnum, sides, present, linked⟩ := exists_of_link sound runs listed
  obtain ⟨cls, known, ran⟩ := exists_class sound runs member
  exact ClassMatches.links_anchored sound known ran present linked

end References

namespace SlotTable

theorem get?_foldl_enter {cls : Resolved.Class} {attrs : List Resolved.Attribute} {slots : SlotTable}
    (key : SlotKey) :
    (attrs.foldl (enter cls) slots).get? key = (slots.get? key).or
      (if cls.name = key.1 then (attrs.find? (·.name = key.2)).map (.ofAttribute cls) else none) := by
  induction attrs generalizing slots with
  | nil => simp
  | cons attr rest ih =>
    rw [List.foldl_cons, ih]
    by_cases here : (cls.name, attr.name) = key
    · subst here
      cases known : slots.get? (cls.name, attr.name) with
      | none => simp [enter, Table.contains, known, Table.get?_insert]
      | some slot => simp [enter, Table.contains, known]
    · have kept : (enter cls slots attr).get? key = slots.get? key := by
        unfold enter
        split
        · rfl
        · rw [Table.get?_insert, if_neg here]
      rw [kept]
      by_cases named : cls.name = key.1
      · have other : attr.name ≠ key.2 := fun same => here (Prod.ext named same)
        simp [named, other]
      · simp [named]

/-- A slot is that of the attribute record that counts. -/
theorem get?_ofClasses {classes : Table Name Resolved.Class}
    (named : ∀ name cls, classes.get? name = some cls → cls.name = name) (key : SlotKey) :
    (ofClasses classes.values).get? key = (classes.get? key.1).bind fun cls =>
      (cls.attribute? key.2).map (TypeSlot.ofAttribute cls) := by
  have run : ∀ (listed : List Resolved.Class) (slots : SlotTable),
      (listed.foldl (fun slots cls => cls.allAttributes.foldl (enter cls) slots) slots).get? key =
        (slots.get? key).or (listed.findSome? fun cls =>
          if cls.name = key.1 then (cls.attribute? key.2).map (TypeSlot.ofAttribute cls) else none) := by
    intro listed
    induction listed with
    | nil => simp
    | cons cls rest ih =>
      intro slots
      rw [List.foldl_cons, ih, get?_foldl_enter, List.findSome?_cons, Option.or_assoc]
      congr 1
      change Option.or (if cls.name = key.1 then
        (cls.attribute? key.2).map (TypeSlot.ofAttribute cls) else none) _ = _
      cases (if cls.name = key.1 then
        (cls.attribute? key.2).map (TypeSlot.ofAttribute cls) else none) <;> rfl
  rw [ofClasses, run, Table.get?_empty, Option.none_or, Table.findSome?_values]
  · cases known : classes.get? key.1 with
    | none => rfl
    | some cls => simp [named key.1 cls known]
  · intro other cls known different
    rw [named other cls known, if_neg different]

theorem number?_eq_some_iff {slots : SlotTable} {key : SlotKey} {number : Nat} :
    slots.number? key = some number ↔ slots.keys[number]? = some key := by
  unfold number?
  rw [List.idxOf?_eq_some_iff, List.getElem?_eq_some_iff]
  constructor
  · rintro ⟨inside, same, _⟩
    exact ⟨inside, same⟩
  · rintro ⟨inside, same⟩
    refine ⟨inside, same, fun earlier less equal => ?_⟩
    have distinct : slots.keys.Nodup := slots.nodup
    exact Nat.ne_of_lt less ((List.Nodup.getElem_inj_iff distinct).mp (equal.trans same.symm))

theorem isSome_number?_iff {slots : SlotTable} {key : SlotKey} :
    (slots.number? key).isSome = true ↔ (slots.get? key).isSome = true := by
  unfold number?
  rw [List.isSome_idxOf?, ← Table.contains_iff, Table.contains]

theorem lt_size_of_number? {slots : SlotTable} {key : SlotKey} {number : Nat}
    (numbered : slots.number? key = some number) : number < slots.size := by
  obtain ⟨inside, _⟩ := List.getElem?_eq_some_iff.mp (number?_eq_some_iff.mp numbered)
  rwa [Table.keys, List.length_map] at inside

/-- The slots divided by some links. -/
def joined (slots : SlotTable) (links : List AttributeLink) : UnionFind :=
  (UnionFind.singletons slots.size).unionAll (links.filterMap slots.ends?)

theorem ends?_eq_some_iff {slots : SlotTable} {link : AttributeLink} {ends : Nat × Nat} :
    slots.ends? link = some ends ↔
      slots.number? link.source = some ends.1 ∧ slots.number? link.target = some ends.2 := by
  obtain ⟨first, second⟩ := ends
  unfold ends? AttributeLink.source AttributeLink.target
  cases slots.number? (link.className, link.attr) <;>
    cases slots.number? (link.targetClass, link.targetAttr) <;> simp

private theorem ends_lt {slots : SlotTable} {links : List AttributeLink} :
    ∀ pair ∈ links.filterMap slots.ends?, pair.1 < slots.size ∧ pair.2 < slots.size := by
  intro pair listed
  obtain ⟨link, _, found⟩ := List.mem_filterMap.mp listed
  obtain ⟨source, target⟩ := ends?_eq_some_iff.mp found
  exact ⟨lt_size_of_number? source, lt_size_of_number? target⟩

theorem count_joined (slots : SlotTable) (links : List AttributeLink) :
    (slots.joined links).count = slots.size := by
  have inside : ∀ pair ∈ links.filterMap slots.ends?,
      pair.1 < (UnionFind.singletons slots.size).count ∧
        pair.2 < (UnionFind.singletons slots.size).count := by
    simpa using ends_lt
  rw [joined, ((UnionFind.forest_singletons _).unionAll_spec inside UnionFind.root_singletons_eq_iff).1,
    UnionFind.count_singletons]

/-- Two slots are in one set exactly if links lead from the one to the other. -/
theorem root_joined_eq_iff {slots : SlotTable} {links : List AttributeLink} {related : SlotKey → SlotKey → Prop}
    (listed : ∀ first second, related first second ↔
      ∃ link ∈ links, link.source = first ∧ link.target = second)
    (anchored : ∀ link ∈ links, (slots.number? link.source).isSome = true ∧
      (slots.number? link.target).isSome = true) {first second : SlotKey} {left right : Nat}
    (leftNumber : slots.number? first = some left) (rightNumber : slots.number? second = some right) :
    (slots.joined links).root left = (slots.joined links).root right ↔
      Relation.EqvGen related first second := by
  rw [joined, UnionFind.root_unionAll_singletons_eq_iff ends_lt]
  constructor
  · intro linked
    let keyOf (number : Nat) : SlotKey := slots.keys.getD number first
    have keyOf_number : ∀ key number, slots.number? key = some number → keyOf number = key := by
      intro key number numbered
      simp [keyOf, number?_eq_some_iff.mp numbered]
    have equal : Relation.EqvGen (fun left right => Relation.EqvGen related (keyOf left) (keyOf right))
        left right := by
      refine Relation.EqvGen.mono (fun left right present => ?_) _ _ linked
      obtain ⟨link, present, ends⟩ := List.mem_filterMap.mp present
      obtain ⟨source, target⟩ := ends?_eq_some_iff.mp ends
      rw [keyOf_number _ _ source, keyOf_number _ _ target]
      exact .rel _ _ ((listed _ _).mpr ⟨link, present, rfl, rfl⟩)
    have pulled : Equivalence fun left right => Relation.EqvGen related (keyOf left) (keyOf right) :=
      (Relation.EqvGen.is_equivalence related).comap keyOf
    have result := pulled.eqvGen_iff.mp equal
    rwa [keyOf_number _ _ leftNumber, keyOf_number _ _ rightNumber] at result
  · intro equal
    have pairs := UnionFind.root_unionAll_singletons_eq_iff (@ends_lt slots links)
    have rooted : (slots.number? first).map (slots.joined links).root =
        (slots.number? second).map (slots.joined links).root := by
      refine UnionFind.eq_of_eqvGen (fun key => (slots.number? key).map (slots.joined links).root)
        ?_ equal
      intro first second related
      obtain ⟨link, present, rfl, rfl⟩ := (listed first second).mp related
      obtain ⟨source, target⟩ := anchored link present
      obtain ⟨left, sourceNumber⟩ := Option.isSome_iff_exists.mp source
      obtain ⟨right, targetNumber⟩ := Option.isSome_iff_exists.mp target
      rw [sourceNumber, targetNumber, Option.map_some, Option.map_some, Option.some_inj]
      refine (pairs left right).mpr (.rel _ _ ?_)
      exact List.mem_filterMap.mpr ⟨link, present, ends?_eq_some_iff.mpr ⟨sourceNumber, targetNumber⟩⟩
    rw [leftNumber, rightNumber, Option.map_some, Option.map_some, Option.some_inj] at rooted
    exact (pairs left right).mp rooted

end SlotTable

namespace TypeSpace

/-- How the sets of a space divide the attributes of a model. -/
structure Divides (space : TypeSpace) (classes : Table Name Resolved.Class)
    (equal : SlotKey → SlotKey → Prop) : Prop where
  slots : ∀ key, space.slots.get? key = (classes.get? key.1).bind fun cls =>
    (cls.attribute? key.2).map (TypeSlot.ofAttribute cls)
  located : ∀ key, (space.rootOf? key.1 key.2).isSome = (slotAttribute? classes key).isSome
  related : ∀ first second left right, space.rootOf? first.1 first.2 = some left →
    space.rootOf? second.1 second.2 = some right → (left = right ↔ equal first second)
  anchored : ∀ first second, equal first second →
    (slotAttribute? classes first).isSome = (slotAttribute? classes second).isSome
  roots : ∀ root, root ∈ space.roots ↔ ∃ key : SlotKey, space.rootOf? key.1 key.2 = some root

/-- The members of a space are its slots with their sets. -/
theorem mem_members_iff {space : TypeSpace} {slot : TypeSlot} {root : Nat} :
    (slot, root) ∈ space.members ↔
      ∃ key, space.slots.get? key = some slot ∧ space.rootOf? key.1 key.2 = some root := by
  simp only [members, rootOf?, Option.bind_eq_some_iff, List.mem_iff_getElem?,
    List.getElem?_zip_eq_some, SlotTable.number?_eq_some_iff]
  constructor
  · rintro ⟨number, placed, rooted⟩
    rw [Table.values, List.getElem?_map, Option.map_eq_some_iff] at placed
    obtain ⟨⟨key, _⟩, entered, rfl⟩ := placed
    refine ⟨key, Table.get?_eq_some_iff.mpr (List.mem_of_getElem? entered), number, ?_, rooted⟩
    rw [Table.keys, List.getElem?_map, entered]
    rfl
  · rintro ⟨key, found, number, placed, rooted⟩
    refine ⟨number, ?_, rooted⟩
    rw [Table.keys, List.getElem?_map, Option.map_eq_some_iff] at placed
    obtain ⟨⟨_, entered⟩, listed, rfl⟩ := placed
    have known := Table.get?_eq_some_iff.mpr (List.mem_of_getElem? listed)
    rw [found] at known
    cases known
    rw [Table.values, List.getElem?_map, listed]
    rfl

/-- Every set has a slot. -/
theorem Divides.owned {space : TypeSpace} {classes : Table Name Resolved.Class}
    {equal : SlotKey → SlotKey → Prop} (divides : space.Divides classes equal) :
    ∀ root ∈ space.roots, ∃ slot, (slot, root) ∈ space.members := by
  intro root listed
  obtain ⟨key, located⟩ := (divides.roots root).mp listed
  have counts : (slotAttribute? classes key).isSome = true := by
    rw [← divides.located, located]
    rfl
  obtain ⟨attr, counts⟩ := Option.isSome_iff_exists.mp counts
  obtain ⟨cls, known, found⟩ := Option.bind_eq_some_iff.mp counts
  refine ⟨.ofAttribute cls attr, mem_members_iff.mpr ⟨key, ?_, located⟩⟩
  rw [divides.slots, known, Option.bind_some, found, Option.map_some]

theorem rootOf?_eq_some_iff {classes : List Resolved.Class} {links : List AttributeLink}
    {className attr : Name} {root : Nat} :
    (ofReferences classes links).rootOf? className attr = some root ↔
      ∃ number, (SlotTable.ofClasses classes).number? (className, attr) = some number ∧
        ((SlotTable.ofClasses classes).joined links).root number = root := by
  unfold rootOf? ofReferences
  rw [Option.bind_eq_some_iff]
  refine exists_congr fun number => and_congr_right fun numbered => ?_
  have inside := SlotTable.lt_size_of_number? numbered
  rw [← SlotTable.count_joined _ links] at inside
  change (List.map _ (List.range (SlotTable.joined _ links).count))[number]? = some root ↔ _
  rw [List.getElem?_map, List.getElem?_range inside, Option.map_some, Option.some_inj]
  rfl

theorem ofReferences_divides {relationships : Table Rnum Resolved.Relationship}
    {classes : Table Name Resolved.Class} (sound : WellFormed relationships classes)
    {references : References} (success : References.ofClasses relationships classes = .ok references) :
    (ofReferences classes.values references.typeLinks).Divides classes references.Equal := by
  have slots := SlotTable.get?_ofClasses sound.className
  have numbered : ∀ key, ((SlotTable.ofClasses classes.values).number? key).isSome =
      (slotAttribute? classes key).isSome := by
    intro key
    rw [Bool.eq_iff_iff, SlotTable.isSome_number?_iff, slots, slotAttribute?]
    cases classes.get? key.1 <;> simp
  have located : ∀ key, ((ofReferences classes.values references.typeLinks).rootOf? key.1 key.2).isSome =
      (slotAttribute? classes key).isSome := by
    intro key
    rw [← numbered, Bool.eq_iff_iff, Option.isSome_iff_exists, Option.isSome_iff_exists]
    simp only [rootOf?_eq_some_iff]
    exact ⟨fun ⟨_, number, found, _⟩ => ⟨number, found⟩, fun ⟨number, found⟩ => ⟨_, number, found, rfl⟩⟩
  refine ⟨slots, located, ?_, fun first second => UnionFind.eq_of_eqvGen
    (fun key => (slotAttribute? classes key).isSome) ?_, ?_⟩
  · intro first second left right leftRoot rightRoot
    obtain ⟨leftNumber, first, rfl⟩ := rootOf?_eq_some_iff.mp leftRoot
    obtain ⟨rightNumber, second, rfl⟩ := rootOf?_eq_some_iff.mp rightRoot
    refine SlotTable.root_joined_eq_iff (fun _ _ => References.linked_iff) (fun link listed => ?_)
      first second
    rw [numbered, numbered]
    exact References.links_anchored sound success (.inl listed)
  · intro first second linked
    obtain ⟨link, listed, rfl, rfl⟩ := References.linked_iff.mp linked
    obtain ⟨source, target⟩ := References.links_anchored sound success (.inl listed)
    exact source.trans target.symm
  · intro root
    simp only [rootOf?_eq_some_iff]
    constructor
    · intro listed
      obtain ⟨number, below, rfl⟩ := List.mem_map.mp listed
      have inside : number < (SlotTable.ofClasses classes.values).keys.length := by
        have bound := (SlotTable.count_joined _ references.typeLinks) ▸ List.mem_range.mp below
        rwa [Table.keys, List.length_map]
      exact ⟨_, number, SlotTable.number?_eq_some_iff.mpr (List.getElem?_eq_getElem inside), rfl⟩
    · rintro ⟨key, number, found, rfl⟩
      have inside : number < ((SlotTable.ofClasses classes.values).joined references.typeLinks).count := by
        rw [SlotTable.count_joined]
        exact SlotTable.lt_size_of_number? found
      exact List.mem_map_of_mem (List.mem_range.mpr inside)

end TypeSpace

end ClassModel
