import ClassModel.Proofs.ExplicitMatches
import ClassModel.Proofs.RenamedLayouts

/-! # Classes with references written out

A class that refers to a single side over a relationship can have its match there written out by renames:
each attribute without a rename in effect is given the name of what it stands in for. Over that relationship
the class then matches by name, and over the others as it did.
-/

namespace ClassModel

section Regular

/-- Where names occur once, a group lists its members in their order. -/
theorem Identifiers.sublist_of_ofMemberships {memberships : List (Name × List IdGroup)}
    (distinct : (memberships.map (·.1)).Nodup) {group : IdGroup} {members : List Name}
    (found : (ofMemberships memberships).members? group = some members) :
    members.Sublist (memberships.map (·.1)) := by
  unfold ofMemberships at found
  split at found <;> obtain ⟨_, ⟨⟩⟩ := Option.ite_none_right_eq_some.mp found
  · exact List.nil_sublist _
  · have part : ((memberships.filter (·.2.contains group)).map (·.1)).Sublist (memberships.map (·.1)) :=
      List.filter_sublist.map _
    rw [collect, eraseDups_of_nodup (part.nodup distinct)]
    exact part

/-- A class of a model is regular if its attributes have names that differ in more than case. -/
theorem Resolved.Class.isRegular {input : ModelInput} {options : AnalysisOptions} {merged : Merged}
    (merging : Merged.ofInput input options = .ok merged) {classes : Table Name Class}
    (navigating : navigateClasses merged.relationships merged.classes = .ok classes) {name : Name}
    {cls : Class} (known : classes.get? name = some cls)
    (apart : (cls.allAttributes.map fun attr => Text.lowercase attr.name).Nodup) : cls.IsRegular := by
  obtain ⟨original, found, ran⟩ := get?_navigateClasses navigating known
  obtain ⟨_, _, _, _, entered, _⟩ := Merged.ofInput_eq_ok_iff.mp merging
  obtain ⟨declaration, _, _, number, rfl⟩ := Merged.classes_declared entered found
  obtain ⟨_, _, identifiers, names⟩ := navigate_keeps ran
  rw [allAttributes, List.map_append] at apart
  have regular := (List.nodup_append.mp apart).1
  refine ⟨fun group members defined => ?_, regular⟩
  rw [identifiers] at defined
  have distinct : (cls.attributes.map (·.name)).Nodup := .of_map Text.lowercase (by rwa [List.map_map])
  have listed : (declaration.2.attributes.map fun attr => (attr.name, attr.identifiers)).map (·.1) =
      cls.attributes.map (·.name) := by
    rw [names, ofDeclaration, List.map_map, List.map_map]
    rfl
  rw [← listed] at distinct ⊢
  exact Identifiers.sublist_of_ofMemberships distinct defined

end Regular

/-- Where names occur once, a further rename is in effect for an attribute that has no other. -/
theorem Resolved.Class.renameOn?_addRenames {cls : Class} (distinct : (cls.allAttributes.map (·.name)).Nodup)
    (added : Name → Name → List Rename) {attr : Attribute} (owned : attr ∈ cls.allAttributes) (rnum : Rnum)
    (side : Side) :
    (cls.addRenames added).renameOn? rnum side attr.name =
      (cls.renameOn? rnum side attr.name).or
        (((added cls.name attr.name).find? (·.rnum = rnum)).map (·.source)) := by
  let changed := attr.addRenames (added cls.name attr.name)
  have only : ∀ other ∈ cls.allAttributes, other.name = attr.name → other = attr :=
    fun other listed same => List.inj_on_of_nodup_map distinct listed owned same
  have changedOwned : changed ∈ (cls.addRenames added).allAttributes := by
    rw [allAttributes_addRenames]
    exact List.mem_map_of_mem owned
  have changedOnly : ∀ other ∈ (cls.addRenames added).allAttributes, other.name = changed.name →
      other = changed := by
    rw [allAttributes_addRenames, List.forall_mem_map]
    exact fun other listed same => by rw [only other listed same]
  have renames : changed.renameOver? rnum =
      (attr.renameOver? rnum).or (((added cls.name attr.name).find? (·.rnum = rnum)).map (·.source)) := by
    change ((attr.renames ++ added cls.name attr.name).find? (·.rnum = rnum)).map (·.source) = _
    rw [List.find?_append, Option.map_or]
    rfl
  have effect := renameOn?_of_only changedOwned changedOnly rnum side
  rw [renames] at effect
  rw [renameOn?_of_only owned only]
  refine effect.trans ?_
  change (((attr.navigationsOver rnum).find? (·.endpoint.side = side)).bind (·.rename) <|> _) = _
  cases ((attr.navigationsOver rnum).find? (·.endpoint.side = side)).bind (·.rename) <;> rfl

/-- Whether a class refers to a single side over a relationship, so that no association class stands between. -/
def RefersOnce (relationships : Table Rnum Resolved.Relationship) (className : Name) (rnum : Rnum) : Prop :=
  ∃ relationship far, relationships.get? rnum = some relationship ∧
    relationship.farEnds? className = some [far]

namespace ClassMatches

variable {classes : Table Name Resolved.Class} {relationships : Table Rnum Resolved.Relationship}
  {cls : Resolved.Class} {layout : Layout} {rnum : Rnum} {attrs : List Name} {sides : List SideMatch}

/-- Where the classes are regular, no attribute stands in for two members of a side. -/
theorem nodup_assigned (sound : WellFormed relationships classes)
    (regular : ∀ name referred, classes.get? name = some referred → referred.IsRegular) {found : ClassMatches}
    (matched : ofClass classes relationships cls = .ok found)
    (present : (rnum, sides) ∈ found.references ∨ (rnum, sides) ∈ found.choices) {side : SideMatch}
    (listed : side ∈ sides) : side.assignment.values.Nodup := by
  refine Table.nodup_values_iff.mpr fun first second attr one two => ?_
  obtain ⟨_, _, _, _, _, paired⟩ := exists_partition sound matched present
  obtain ⟨source, _, known, covers, pairs⟩ := exists_left_of_forall₂ paired listed
  obtain ⟨members, defined, keys⟩ := covers.members
  have owned : ∀ {identifier : Name}, side.assignment.get? identifier = some attr →
      identifier ∈ source.referred.attributes.map (·.name) := fun assigned =>
    (regular _ _ known).owned defined ((keys _).mp (Table.mem_keys_of_get? assigned))
  exact (regular _ _ known).eq_of_isCalled (owned one) (owned two) (.inl rfl)
    (.inl (pairs.lowercase_eq one two (owned one) (owned two)))

section Over

variable (once : RefersOnce relationships cls.name rnum) (sound : WellFormed relationships classes)
  (regular : ∀ name referred, classes.get? name = some referred → referred.IsRegular)

include once sound

/-- Over a relationship with a single side there is one match, that of the only side of the partition. -/
theorem exists_only_side (ran : matchOver classes relationships cls layout (rnum, attrs) = .ok (rnum, sides)) :
    ∃ partition source found,
      Partition.ofAttributes classes relationships cls layout rnum attrs = .ok partition ∧
      partition.match? (layout.renamesOver rnum) = .ok [found] ∧ sides = [found] ∧
      partition.sources = [source] ∧ found.side = source.side ∧
      classes.get? found.referred = some source.referred ∧
      (∀ attr ∈ source.bound, attr ∉ partition.free) ∧ ∀ attr ∈ found.assignment.values, attr ∈ attrs := by
  obtain ⟨relationship, far, related, single⟩ := once
  obtain ⟨partition, divided, complete⟩ := isComplete_of_matchOver sound ran
  obtain ⟨other, same, offered⟩ := complete.sides
  rw [related] at same
  cases same
  rw [single] at offered
  obtain ⟨found, rfl, _⟩ := List.map_eq_singleton_iff.mp (Option.some.inj offered).symm
  obtain ⟨source, rest, ⟨side, known, _, _, values⟩, none, only⟩ := List.forall₂_cons_right_iff.mp complete.each
  obtain rfl := List.forall₂_nil_right_iff.mp none
  obtain ⟨same, divides, matched, _⟩ := matchOver_eq_ok_iff.mp ran
  rw [divided] at divides
  cases divides
  have listed : source ∈ partition.sources := only ▸ List.mem_singleton_self _
  exact ⟨partition, source, found, divided, matched, rfl, only, side, known,
    fun attr bound => (Partition.ofAttributes_divides divided).disjoint listed bound,
    fun attr inUse => (values attr inUse).1⟩

include regular

/-- A match over a relationship with a single side is found again with the renames that write it out. -/
theorem matchOver_explicit (distinct : (cls.allAttributes.map (·.name)).Nodup)
    (owned : ∀ name ∈ attrs, ∃ attr ∈ cls.allAttributes, attr.name = name)
    (laid : Layout.ofClass cls = .ok layout) {added : Name → Name → List Rename}
    {renames : Table Rnum (Table Name Name)}
    (relaid : Layout.ofClass (cls.addRenames added) = .ok { layout with renames })
    (ran : matchOver classes relationships cls layout (rnum, attrs) = .ok (rnum, sides))
    (spelled : ∀ side ∈ sides, ∀ identifier attr, side.assignment.get? identifier = some attr →
      cls.renameOn? rnum side.side attr = none → added cls.name attr = [⟨rnum, identifier⟩]) :
    ∃ others, matchOver classes relationships cls { layout with renames } (rnum, attrs) = .ok (rnum, others) ∧
      List.Forall₂ SideMatch.Alike sides others := by
  obtain ⟨partition, source, found, divided, matched, rfl, only, side, known, disjoint, values⟩ :=
    exists_only_side once sound ran
  obtain ⟨peer, peerDivided, alike⟩ := Partition.exists_ofAttributes divided renames
  obtain ⟨rebound, rest, same, none, peerOnly⟩ := List.forall₂_cons_left_iff.mp (only ▸ alike.sources)
  obtain rfl := List.forall₂_nil_left_iff.mp none
  have inEffect : ∀ identifier attr, found.assignment.get? identifier = some attr →
      (cls.addRenames added).renameOn? rnum source.side attr =
        some ((cls.renameOn? rnum source.side attr).getD identifier) := by
    intro identifier attr assigned
    obtain ⟨record, listed, rfl⟩ := owned attr (values attr (Table.mem_values_of_get? assigned))
    rw [Resolved.Class.renameOn?_addRenames distinct added listed]
    cases renamed : cls.renameOn? rnum source.side record.name with
    | some name => rfl
    | none =>
      rw [spelled found (List.mem_singleton_self _) identifier _ assigned (side ▸ renamed)]
      simp
  have bound : found.SpellsOut source.bound source.renames rebound.renames := by
    intro identifier attr assigned isBound
    have listed : source ∈ partition.sources := only ▸ List.mem_singleton_self _
    have peerListed : rebound ∈ peer.sources := peerOnly ▸ List.mem_singleton_self _
    rw [Partition.get?_renames_of_bound laid divided listed isBound,
      Partition.get?_renames_of_bound relaid peerDivided peerListed (same.bound ▸ isBound), same.side]
    exact inEffect identifier attr assigned
  have free : found.SpellsOut partition.free (layout.renamesOver rnum)
      (Layout.renamesOver { layout with renames } rnum) := by
    intro identifier attr assigned isFree
    rw [Partition.get?_renamesOver_of_free laid divided isFree source.side,
      Partition.get?_renamesOver_of_free relaid peerDivided (alike.free ▸ isFree) source.side]
    exact inEffect identifier attr assigned
  obtain ⟨other, rematched, alikeOther⟩ :=
    Partition.match?_explicit only (regular _ _ known) disjoint matched bound free
  have peerEq : peer = { partition with sources := [{ source with renames := rebound.renames }] } := by
    obtain ⟨sources, unbound⟩ := peer
    obtain rfl : sources = [rebound] := peerOnly
    obtain rfl : unbound = partition.free := alike.free
    exact congrArg (fun bound : SourceSide => (⟨[bound], partition.free⟩ : Partition)) same
  exact ⟨[other], matchOver_eq_ok_iff.mpr ⟨peer, peerDivided, peerEq ▸ rematched, rfl⟩, .cons alikeOther .nil⟩

end Over

/-- Over a relationship for which no attribute has a further rename a class matches as before. -/
theorem matchOver_renames {renames : Table Rnum (Table Name Name)} {entry : Rnum × List Name}
    (same : renames.get? entry.1 = layout.renames.get? entry.1) :
    matchOver classes relationships cls { layout with renames } entry =
      matchOver classes relationships cls layout entry := by
  have sameRenames : Layout.renamesOver { layout with renames } entry.1 = layout.renamesOver entry.1 := by
    unfold Layout.renamesOver
    rw [same]
  have places : Partition.placeAttribute cls.name { layout with renames } entry.1 =
      Partition.placeAttribute cls.name layout entry.1 := by
    funext partition attr
    unfold Partition.placeAttribute
    rw [sameRenames]
    rfl
  unfold matchOver Partition.ofAttributes
  dsimp only
  rw [places, sameRenames]

/-- The matches of two relationships that assign the same. -/
def AlikeOver (left right : Rnum × List SideMatch) : Prop :=
  left.1 = right.1 ∧ List.Forall₂ SideMatch.Alike left.2 right.2

theorem AlikeOver.refl (entry : Rnum × List SideMatch) : AlikeOver entry entry :=
  ⟨rfl, List.forall₂_same.mpr fun _ _ => ⟨rfl, rfl, rfl, fun _ => rfl⟩⟩

/-- Matches of a class that assign the same. -/
structure Alike (left right : ClassMatches) : Prop where
  className : left.className = right.className
  ignored : left.ignored = right.ignored
  references : List.Forall₂ AlikeOver left.references right.references
  choices : List.Forall₂ AlikeOver left.choices right.choices

theorem Alike.refl (found : ClassMatches) : found.Alike found :=
  ⟨rfl, rfl, List.forall₂_same.mpr fun _ _ => .refl _, List.forall₂_same.mpr fun _ _ => .refl _⟩

/-- Renames that write out what a class matches over a relationship: each attribute for which none is in
effect is given the name of what it stands in for. -/
structure IsWrittenOut (cls : Resolved.Class) (found : ClassMatches) (rnum : Rnum)
    (renames : Name → List Rename) : Prop where
  along : ∀ attr, ∀ rename ∈ renames attr, rename.rnum = rnum
  distinct : ∀ attr, ((renames attr).map (·.rnum)).Nodup
  fresh : ∀ attr, ∀ rename ∈ renames attr, cls.renameOver? rnum attr = none
  spelled : ∀ sides, (rnum, sides) ∈ found.references ∨ (rnum, sides) ∈ found.choices → ∀ side ∈ sides,
    ∀ identifier attr, side.assignment.get? identifier = some attr →
      cls.renameOn? rnum side.side attr = none → renames attr = [⟨rnum, identifier⟩]

/-- A class to which no renames are added matches as before. -/
theorem ofClass_addRenames_of_none {added : Name → Name → List Rename}
    (none : ∀ attr, added cls.name attr = []) :
    ofClass (classes.mapValues fun _ => .addRenames added) relationships (cls.addRenames added) =
      ofClass classes relationships cls := by
  have unchanged : cls.addRenames added = cls := by
    have same : (fun attr : Resolved.Attribute => attr.addRenames (added cls.name attr.name)) = id := by
      funext attr
      rw [none, Resolved.Attribute.addRenames, List.append_nil]
      rfl
    rw [Resolved.Class.addRenames, same]
    exact congrArg₂ (fun attributes ignoredAttributes => { cls with attributes, ignoredAttributes })
      (List.map_id _) (List.map_id _)
  have alike := matchOver_mapValues (Resolved.Class.isUnseen_addRenames added) classes relationships cls
  rw [unchanged] at alike ⊢
  unfold ofClass
  rw [alike]

section WrittenOut

variable (sound : WellFormed relationships classes)
  (regular : ∀ name referred, classes.get? name = some referred → referred.IsRegular)
  (once : RefersOnce relationships cls.name rnum) (distinct : (cls.allAttributes.map (·.name)).Nodup)

include sound regular once distinct

/-- The matches of a table of attributes are found again with the renames that write out one of them. -/
theorem matches_explicit (laid : Layout.ofClass cls = .ok layout) {added : Name → Name → List Rename}
    {renames : Table Rnum (Table Name Name)}
    (relaid : Layout.ofClass (cls.addRenames added) = .ok { layout with renames })
    (unaffected : ∀ other, rnum ≠ other → renames.get? other = layout.renames.get? other)
    {table : Table Rnum (List Name)} {results : List (Rnum × List SideMatch)}
    (runs : List.Forall₂ (fun entry result => matchOver classes relationships cls layout entry = .ok result)
      table.entries results)
    (owned : ∀ rnum, ∀ name ∈ Layout.listedFor table rnum, ∃ attr ∈ cls.allAttributes, attr.name = name)
    (spelled : ∀ sides, (rnum, sides) ∈ results → ∀ side ∈ sides, ∀ identifier attr,
      side.assignment.get? identifier = some attr → cls.renameOn? rnum side.side attr = none →
        added cls.name attr = [⟨rnum, identifier⟩]) :
    ∃ others, List.Forall₂ (fun entry result =>
        matchOver classes relationships cls { layout with renames } entry = .ok result) table.entries others ∧
      List.Forall₂ AlikeOver results others := by
  refine exists_forall₂_of_forall₂ runs fun entry listed result present ran => ?_
  obtain ⟨_, attrs⟩ := entry
  obtain ⟨number, sides⟩ := result
  obtain ⟨_, _, _, rfl⟩ := matchOver_eq_ok_iff.mp ran
  by_cases here : rnum = number
  · subst here
    have attrsOwned : ∀ name ∈ attrs, ∃ attr ∈ cls.allAttributes, attr.name = name := by
      intro name member
      refine owned rnum name ?_
      rw [Layout.listedFor, Table.get?_eq_some_iff.mpr listed]
      exact member
    obtain ⟨others, again, alike⟩ := matchOver_explicit once sound regular distinct attrsOwned laid relaid ran
      (spelled sides present)
    exact ⟨(rnum, others), again, rfl, alike⟩
  · exact ⟨_, (matchOver_renames (unaffected number here)).trans ran, .refl _⟩

/-- With the renames that write out what a class matches over a relationship with a single side, the class
matches alike. -/
theorem ofClass_explicit {found : ClassMatches} (matched : ofClass classes relationships cls = .ok found)
    {added : Name → Name → List Rename} (written : found.IsWrittenOut cls rnum (added cls.name)) :
    ∃ other, ofClass (classes.mapValues fun _ => .addRenames added) relationships (cls.addRenames added) =
      .ok other ∧ found.Alike other := by
  obtain ⟨layout, references, choices, laid, referring, choosing, rfl⟩ := ofClass_eq_ok_iff.mp matched
  have fresh : ∀ attr ∈ cls.allAttributes, ∀ rename ∈ added cls.name attr.name,
      attr.renameOver? rename.rnum = none := by
    intro attr owned rename listed
    rw [written.along _ _ listed, ← Resolved.Class.renameOver?_of_only owned fun other present same =>
      List.inj_on_of_nodup_map distinct present owned same]
    exact written.fresh _ _ listed
  obtain ⟨renames, relaid, unaffected⟩ :=
    Layout.ofClass_addRenames laid distinct (fun attr _ => written.distinct attr.name) fresh
  have elsewhere : ∀ other, rnum ≠ other → renames.get? other = layout.renames.get? other :=
    fun other apart => unaffected other fun attr _ rename listed same =>
      apart ((written.along _ _ listed).symm.trans same)
  have included : ∀ rnum, ∀ name ∈ Layout.listedFor layout.inclusion rnum,
      ∃ attr ∈ cls.allAttributes, attr.name = name := by
    intro rnum name listed
    obtain ⟨attr, owned, same, _⟩ := (Layout.mem_inclusion_iff laid).mp listed
    exact ⟨attr, owned, same⟩
  have chosen : ∀ rnum, ∀ name ∈ Layout.listedFor layout.unionInclusion rnum,
      ∃ attr ∈ cls.allAttributes, attr.name = name := by
    intro rnum name listed
    obtain ⟨attr, owned, same, _⟩ := (Layout.mem_unionInclusion_iff laid).mp listed
    exact ⟨attr, owned, same⟩
  obtain ⟨referringAgain, refers, alike⟩ := matches_explicit sound regular once distinct laid relaid elsewhere
    referring included fun sides present => written.spelled sides (.inl present)
  obtain ⟨choosingAgain, chooses, alsoAlike⟩ := matches_explicit sound regular once distinct laid relaid
    elsewhere choosing chosen fun sides present => written.spelled sides (.inr present)
  have unseen := matchOver_mapValues (Resolved.Class.isUnseen_addRenames added) classes relationships cls
  refine ⟨_, ofClass_eq_ok_iff.mpr ⟨_, referringAgain, choosingAgain, relaid, ?_, ?_, rfl⟩, rfl, ?_, alike,
    alsoAlike⟩
  · rw [unseen]
    exact refers
  · rw [unseen]
    exact chooses
  · change _ = ((cls.ignoredAttributes.map _).map _)
    rw [List.map_map]
    rfl

end WrittenOut

end ClassMatches

end ClassModel
