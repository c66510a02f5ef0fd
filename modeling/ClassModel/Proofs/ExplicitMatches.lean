import ClassModel.Proofs.ExactMatches

/-! # Matches written out

Where a class refers to a single side, the match of the side can be written out: each attribute is given
the name of the member that it stands in for as its rename, unless it carries one. Then the same attributes
stand in for the same members. By the names they go by now they are matched without force, and no other
group can be matched beside: one that they could be matched with by name has the same members, so that the
match would have had two solutions before.
-/

namespace ClassModel

/-- Parts of a list without repeats that have the same members are equal. -/
theorem eq_of_sublist_of_mem_iff {α : Type} {items first second : List α} (distinct : items.Nodup)
    (one : first.Sublist items) (two : second.Sublist items) (same : ∀ item, item ∈ first ↔ item ∈ second) :
    first = second := by
  induction one generalizing second with
  | slnil => exact (List.sublist_nil.mp two).symm
  | cons item one ih =>
    obtain ⟨absent, distinct⟩ := List.nodup_cons.mp distinct
    cases two with
    | cons _ two => exact ih distinct two same
    | cons_cons _ two => exact absurd (one.subset ((same item).mpr (List.mem_cons_self ..))) absent
  | @cons_cons rest items item one ih =>
    obtain ⟨absent, distinct⟩ := List.nodup_cons.mp distinct
    cases two with
    | cons _ two => exact absurd (two.subset ((same item).mp (List.mem_cons_self ..))) absent
    | @cons_cons others _ _ two =>
      have apart : ∀ part : List α, part.Sublist items → ∀ other ∈ part, other ≠ item :=
        fun part within other listed alike => absent (within.subset (alike ▸ listed))
      refine congrArg _ (ih distinct two fun other => ⟨fun listed => ?_, fun listed => ?_⟩)
      · have both := (same other).mp (List.mem_cons_of_mem _ listed)
        exact (List.mem_cons.mp both).resolve_left (apart rest one other listed)
      · have both := (same other).mpr (List.mem_cons_of_mem _ listed)
        exact (List.mem_cons.mp both).resolve_left (apart others two other listed)

/-- A class whose attributes have names that differ in more than case, and which lists the members of its
identifier groups in the order of its attributes. -/
structure Resolved.Class.IsRegular (cls : Class) : Prop where
  ordered : ∀ group members, cls.identifiers.members? group = some members →
    members.Sublist (cls.attributes.map (·.name))
  apart : (cls.attributes.map fun attr => Text.lowercase attr.name).Nodup

namespace Resolved.Class.IsRegular

variable {cls : Class} (regular : cls.IsRegular)

include regular

theorem names_nodup : (cls.attributes.map (·.name)).Nodup := by
  refine List.Nodup.of_map Text.lowercase ?_
  rw [List.map_map]
  exact regular.apart

theorem members_nodup (group : IdGroup) (members : List Name)
    (defined : cls.identifiers.members? group = some members) : members.Nodup :=
  (regular.ordered group members defined).nodup regular.names_nodup

theorem owned {group : IdGroup} {members : List Name} (defined : cls.identifiers.members? group = some members)
    {member : Name} (listed : member ∈ members) : member ∈ cls.attributes.map (·.name) :=
  (regular.ordered group members defined).subset listed

/-- Attributes that are called by one name are one. -/
theorem eq_of_isCalled {first second key : Name} (firstOwned : first ∈ cls.attributes.map (·.name))
    (secondOwned : second ∈ cls.attributes.map (·.name)) (one : cls.IsCalled first key)
    (two : cls.IsCalled second key) : first = second := by
  refine List.inj_on_of_nodup_map (f := Text.lowercase) ?_ firstOwned secondOwned
    (one.lowercase_eq two firstOwned secondOwned)
  rw [List.map_map]
  exact regular.apart

end Resolved.Class.IsRegular

section First

/-- The candidate for another group with the same members. -/
def GroupCandidate.regroup (group : IdGroup) (candidate : GroupCandidate) : GroupCandidate :=
  { candidate with found := { candidate.found with group } }

/-- The members of a group count for a candidate, whatever group they are of. -/
theorem SidePool.complete_regroup (pool : SidePool) (group other : IdGroup) (draft : GroupDraft) :
    (pool.complete other draft).candidate? = (pool.complete group draft).candidate?.map (·.regroup other) := by
  unfold complete
  split
  · split <;> rfl
  · split
    · rfl
    · split
      · rfl
      · split <;> rfl
  · rfl

/-- A choice fits as well with another group of the same members. -/
theorem GroupCandidate.judge_regroup {free : FreePool} {candidate : GroupCandidate} {forced : Nat}
    {found : List SideMatch} (fits : judge free [candidate] = .fits forced found) (group : IdGroup) :
    ∃ others, judge free [candidate.regroup group] = .fits forced others := by
  have consumed : consumedBy [candidate.regroup group] = consumedBy [candidate] := rfl
  have lacks : ∀ missing, [candidate.regroup group].any (·.lacks missing) = [candidate].any (·.lacks missing) :=
    fun _ => rfl
  unfold judge at fits ⊢
  dsimp only at fits ⊢
  rw [consumed]
  simp only [lacks]
  split at fits
  · cases fits
  · rename_i fit
    rw [if_neg fit]
    split at fits
    · cases fits
    · rename_i permitted
      cases fits
      rw [if_neg permitted]
      exact ⟨_, rfl⟩

theorem Verdict.best_eq_ok_iff {overridesRename : Bool} {verdicts : List Verdict} {found : List SideMatch} :
    best overridesRename verdicts = .ok found ↔ ∃ least, (verdicts.filterMap forced?).min? = some least ∧
      verdicts.filterMap (foundWith? least) = [found] := by
  rw [best_eq]
  constructor
  · intro success
    split at success
    · cases success
    · rename_i least first
      split at success
      · rename_i single
        cases success
        exact ⟨least, first, single⟩
      · cases success
  · rintro ⟨least, first, single⟩
    simp only [first, single]

/-- Of two groups with the same members neither is given on an only side. -/
theorem Partition.group_unique {partition : Partition} {source : SourceSide} {general : Table Name Name}
    {found : SideMatch} (sole : partition.sources = [source]) (matched : partition.match? general = .ok [found])
    {members : List Name} (defined : source.referred.identifiers.members? found.group = some members)
    {other : IdGroup} (alsoDefined : source.referred.identifiers.members? other = some members) :
    other = found.group := by
  unfold match? at matched
  split at matched
  · cases matched
  rename_i names named
  rw [sole, List.map_singleton] at matched
  unfold matchPools at matched
  split at matched
  · cases matched
  rename_i candidates collected
  obtain ⟨least, _, single⟩ := Verdict.best_eq_ok_iff.mp (mapError_eq_ok_iff.mp matched)
  have sides := SideCandidates.collect_sides collected
  obtain ⟨items, rest, ⟨pool, pooled, rfl⟩, none, listed⟩ := List.forall₂_cons_left_iff.mp sides
  rw [List.forall₂_nil_left_iff.mp none] at listed
  obtain ⟨bound, _, same⟩ := bind_eq_ok_iff.mp pooled
  cases same
  rw [listed, List.filterMap_map] at single
  -- the choice that is given, and the same one with the other group
  obtain ⟨choice, chosen, fits⟩ := List.mem_filterMap.mp (single ▸ List.mem_singleton_self [found])
  obtain ⟨candidate, rest, formed, none, rfl⟩ := List.forall₂_cons_right_iff.mp (mem_choices_iff.mp chosen)
  rw [List.forall₂_nil_right_iff.mp none] at chosen fits
  rw [Function.comp_apply, Verdict.foundWith?_eq_some_iff] at fits
  obtain ⟨missing, leftover, filled⟩ := GroupCandidate.exists_fill_of_judge fits
  obtain rfl : found = candidate.fill missing leftover := by simpa using filled
  obtain ⟨_, alsoFits⟩ := GroupCandidate.judge_regroup fits other
  obtain ⟨group, others, known, given⟩ := SidePool.mem_candidates_iff.mp formed
  rw [GroupCandidate.group_fill, SidePool.group_of_complete given] at defined ⊢
  cases defined.symm.trans known
  have alsoFormed := SidePool.mem_candidates_iff.mpr ⟨other, members, alsoDefined,
    (SidePool.complete_regroup _ group other _).trans (congrArg _ given)⟩
  by_contra different
  refine filterMap_ne_singleton chosen (mem_choices_iff.mpr (.cons alsoFormed .nil)) (fun alike => ?_)
    (Option.isSome_of_eq_some (Verdict.foundWith?_eq_some_iff.mpr fits))
    (Option.isSome_of_eq_some (Verdict.foundWith?_eq_some_iff.mpr alsoFits)) _ single
  have groups : candidate.found.group = other := congrArg (·.found.group) (List.cons.inj alike).1
  rw [SidePool.group_of_complete given] at groups
  exact different groups.symm

end First

/-- Two matches of a side that assign the same attributes to the members of the same group. -/
structure SideMatch.Alike (left right : SideMatch) : Prop where
  side : left.side = right.side
  referred : left.referred = right.referred
  group : left.group = right.group
  assignment : left.assignment.Same right.assignment

/-- What holds of the match of an only side: the attributes bound to it and the free ones are assigned to
the members of its group, an attribute that carries a rename to a member that is called by it, and no other
group has the same members. -/
structure SideMatch.IsSole (source : SourceSide) (free : List Name) (general : Table Name Name)
    (found : SideMatch) : Prop where
  side : found.side = source.side
  referred : found.referred = source.referred.name
  members : ∃ members, source.referred.identifiers.members? found.group = some members ∧
    (∀ identifier, identifier ∈ found.assignment.keys ↔ identifier ∈ members) ∧
    ∀ other, source.referred.identifiers.members? other = some members → other = found.group
  used : ∀ attr, attr ∈ found.assignment.values ↔ attr ∈ source.bound ∨ attr ∈ free
  boundCalled : ∀ identifier attr, found.assignment.get? identifier = some attr → attr ∈ source.bound →
    ∀ name, source.renames.get? attr = some name → source.referred.IsCalled identifier (Text.lowercase name)
  freeCalled : ∀ identifier attr, found.assignment.get? identifier = some attr → attr ∈ free →
    ∀ name, general.get? attr = some name → source.referred.IsCalled identifier (Text.lowercase name)
  boundNodup : source.bound.Nodup
  freeNodup : free.Nodup

/-- The match of an only side as it is found. -/
theorem Partition.isSole_of_match? {partition : Partition} {source : SourceSide} {general : Table Name Name}
    {found : SideMatch} (sole : partition.sources = [source]) (regular : source.referred.IsRegular)
    (disjoint : ∀ attr ∈ source.bound, attr ∉ partition.free)
    (matched : partition.match? general = .ok [found]) :
    found.IsSole source partition.free general := by
  have distinct : ∀ other ∈ partition.sources, ∀ group members,
      other.referred.identifiers.members? group = some members → members.Nodup := by
    rw [sole, List.forall_mem_singleton]
    exact regular.members_nodup
  obtain ⟨sides, used⟩ := match?_covers distinct matched
  obtain ⟨names, choice, missing, leftover, named, chosen, filling, filled⟩ := match?_eq_fill distinct matched
  rw [sole] at sides chosen
  obtain ⟨covers, _⟩ := List.forall₂_cons.mp sides
  obtain ⟨candidate, rest, ⟨pool, pooled, formed, _⟩, none, rfl⟩ := List.forall₂_cons_left_iff.mp chosen
  obtain rfl := List.forall₂_nil_left_iff.mp none
  obtain rfl : found = candidate.fill missing leftover := by simpa using filled
  have pairs := SidePool.outcomes_pairs (SourceSide.apart_of_pool pooled named disjoint) formed
  have called := fun {identifier attr : Name}
      (assigned : (candidate.fill missing leftover).assignment.get? identifier = some attr) =>
    pairs.isCalled pooled named disjoint filling (List.mem_singleton_self _) assigned
  obtain ⟨members, defined, keys⟩ := covers.members
  obtain ⟨bound, bounded, _⟩ := bind_eq_ok_iff.mp pooled
  refine ⟨covers.side, covers.referred, ⟨members, defined, keys, fun other alsoDefined =>
    group_unique sole matched defined alsoDefined⟩, fun attr => ⟨covers.values attr, ?_⟩, ?_, ?_, ?_, ?_⟩
  · rintro (isBound | isFree)
    · exact covers.bound attr isBound
    · obtain ⟨side, listed, inUse⟩ := used attr isFree
      exact List.mem_singleton.mp listed ▸ inUse
  · intro identifier attr assigned isBound
    exact ((called assigned).resolve_right fun isFree => disjoint attr isBound isFree.1).2
  · intro identifier attr assigned isFree
    exact ((called assigned).resolve_left fun isBound => disjoint attr isBound.1 isFree).2
  · exact List.Nodup.of_map _ (NamePool.ofAttributes_eq_ok_iff.mp bounded).1
  · exact List.Nodup.of_map _ (NamePool.ofAttributes_eq_ok_iff.mp named).1

/-- Whether an attribute goes by a name, be it bound to a side or free. -/
def SidePool.Offers (pool : SidePool) (free : NamePool) (key attr : Name) : Prop :=
  pool.bound.get? key = some attr ∨ free.get? key = some attr

theorem NamePool.Apart.key_eq {pool : SidePool} {free : NamePool} (apart : Apart pool.bound free)
    {first second attr : Name} (one : pool.Offers free first attr) (two : pool.Offers free second attr) :
    first = second := by
  rcases one with one | one <;> rcases two with two | two
  · exact apart.boundKey one two
  · exact absurd (Table.mem_values_of_get? two) (apart.disjoint (Table.mem_values_of_get? one))
  · exact absurd (Table.mem_values_of_get? one) (apart.disjoint (Table.mem_values_of_get? two))
  · exact apart.freeKey one two

/-- The name of a class stands in for id if no attribute goes by id and none of the class is called like it. -/
theorem SidePool.namesClassById_iff {pool : SidePool} {free : NamePool} :
    pool.namesClassById free = true ↔ (∀ attr, ¬ pool.Offers free "id" attr) ∧
      ∀ attr ∈ pool.referred.attributes, Text.lowercase attr.name ≠ Text.lowercase pool.referred.name := by
  simp only [namesClassById, Bool.and_eq_true, Bool.not_eq_eq_eq_not, Bool.not_true,
    Table.contains_eq_false_iff, List.any_eq_false, decide_eq_true_eq, Offers, not_or, forall_and,
    Option.eq_none_iff_forall_ne_some, and_comm (a := ∀ attr, free.get? "id" ≠ some attr)]

/-- Names that tell the match of a group: each attribute goes by a name that its member is called by, all
attributes are in use, and the bound ones carry renames. -/
structure SideMatch.IsSpelledOut (pool : SidePool) (free : NamePool) (members : List Name)
    (found : SideMatch) : Prop where
  regular : pool.referred.IsRegular
  apart : NamePool.Apart pool.bound free
  defined : pool.referred.identifiers.members? found.group = some members
  keys : ∀ identifier, identifier ∈ found.assignment.keys ↔ identifier ∈ members
  each : ∀ identifier attr, found.assignment.get? identifier = some attr →
    ∃ key, pool.Offers free key attr ∧ pool.referred.IsCalled identifier key
  used : ∀ key attr, pool.Offers free key attr → ∃ identifier, found.assignment.get? identifier = some attr
  renamed : ∀ key attr, pool.bound.get? key = some attr → attr ∈ pool.renamed

namespace SideMatch.IsSpelledOut

variable {pool : SidePool} {free : NamePool} {members : List Name} {found : SideMatch}
  (spelled : found.IsSpelledOut pool free members)

include spelled

theorem eq_of_lookupKey {first second : Name} (firstOwned : first ∈ pool.referred.attributes.map (·.name))
    (secondOwned : second ∈ pool.referred.attributes.map (·.name))
    (same : pool.lookupKey free first = pool.lookupKey free second) : first = second :=
  spelled.regular.eq_of_isCalled firstOwned secondOwned (pool.isCalled_lookupKey free first)
    (same ▸ pool.isCalled_lookupKey free second)

theorem owned {identifier : Name} (member : identifier ∈ members) :
    identifier ∈ pool.referred.attributes.map (·.name) :=
  spelled.regular.owned spelled.defined member

theorem mem_of_assigned {identifier attr : Name} (assigned : found.assignment.get? identifier = some attr) :
    identifier ∈ members :=
  (spelled.keys identifier).mp (Table.mem_keys_of_get? assigned)

/-- A member is looked for under the name that its attribute goes by. -/
theorem lookupKey_eq {identifier attr key : Name} (assigned : found.assignment.get? identifier = some attr)
    (offered : pool.Offers free key attr) : pool.lookupKey free identifier = key := by
  obtain ⟨other, alsoOffered, called⟩ := spelled.each identifier attr assigned
  obtain rfl := spelled.apart.key_eq offered alsoOffered
  unfold SidePool.lookupKey
  split
  · rename_i byClass
    obtain own | ⟨_, named, _⟩ := called
    · rw [own, byClass.2] at offered
      exact absurd offered ((SidePool.namesClassById_iff.mp byClass.1).1 attr)
    · exact named.symm
  · rename_i byOwn
    obtain own | ⟨id, named, foreign⟩ := called
    · exact own.symm
    · -- the class does not lend its name because some attribute is called id, and that is this one
      have somebody : ∃ other, pool.Offers free "id" other := by
        by_contra nobody
        exact byOwn ⟨SidePool.namesClassById_iff.mpr ⟨not_exists.mp nobody, foreign⟩, id⟩
      obtain ⟨other, called⟩ := somebody
      obtain ⟨namesake, alsoAssigned⟩ := spelled.used _ other called
      obtain ⟨name, offers, answers⟩ := spelled.each namesake other alsoAssigned
      obtain rfl := spelled.apart.key_eq called offers
      have alike : "id" = Text.lowercase namesake := answers.elim (fun own => own) fun byClass => byClass.1.symm
      obtain rfl := spelled.regular.eq_of_isCalled (spelled.owned (spelled.mem_of_assigned alsoAssigned))
        (spelled.owned (spelled.mem_of_assigned assigned)) (.inl alike) (.inl id.symm)
      rw [assigned] at alsoAssigned
      cases alsoAssigned
      exact id.trans (spelled.apart.key_eq called offered)

/-- An attribute goes by the name of a member exactly if it stands in for the member. -/
theorem offers_lookupKey_iff {identifier attr : Name}
    (owned : identifier ∈ pool.referred.attributes.map (·.name)) :
    pool.Offers free (pool.lookupKey free identifier) attr ↔ found.assignment.get? identifier = some attr := by
  constructor
  · intro offered
    obtain ⟨other, assigned⟩ := spelled.used _ attr offered
    have same := spelled.lookupKey_eq assigned offered
    rwa [← spelled.eq_of_lookupKey (spelled.owned (spelled.mem_of_assigned assigned)) owned same]
  · intro assigned
    obtain ⟨key, offered, _⟩ := spelled.each identifier attr assigned
    rwa [spelled.lookupKey_eq assigned offered]

/-- Every name is looked for, by its own member. -/
theorem exists_lookupKey {key attr : Name} (offered : pool.Offers free key attr) :
    ∃ identifier ∈ members, found.assignment.get? identifier = some attr ∧
      pool.lookupKey free identifier = key := by
  obtain ⟨identifier, assigned⟩ := spelled.used key attr offered
  exact ⟨identifier, spelled.mem_of_assigned assigned, assigned, spelled.lookupKey_eq assigned offered⟩

/-- What is sought beyond the bound names are the free ones. -/
theorem mem_soughtFree_iff {key : Name} : key ∈ pool.soughtFree free members ↔ key ∈ free.keys := by
  have distinct : (pool.sought free members).Nodup := by
    refine (spelled.regular.members_nodup _ _ spelled.defined).map_on fun first one second two => ?_
    exact spelled.eq_of_lookupKey (spelled.owned one) (spelled.owned two)
  rw [SidePool.soughtFree, distinct.mem_sdiff_iff, SidePool.sought, List.mem_map]
  constructor
  · rintro ⟨⟨identifier, member, rfl⟩, unbound⟩
    obtain ⟨attr, assigned⟩ := Table.mem_keys_iff.mp ((spelled.keys identifier).mpr member)
    have offered := (spelled.offers_lookupKey_iff (spelled.owned member)).mpr assigned
    exact Table.mem_keys_of_get? (offered.resolve_left fun bound => unbound (Table.mem_keys_of_get? bound))
  · intro listed
    obtain ⟨attr, isFree⟩ := Table.mem_keys_iff.mp listed
    obtain ⟨identifier, member, assigned, looked⟩ := spelled.exists_lookupKey (.inr isFree)
    refine ⟨⟨identifier, member, looked⟩, fun isBound => ?_⟩
    obtain ⟨other, bound⟩ := Table.mem_keys_iff.mp isBound
    have same := (spelled.offers_lookupKey_iff (spelled.owned member)).mp (.inl (looked.symm ▸ bound))
    rw [assigned] at same
    cases same
    exact spelled.apart.disjoint (Table.mem_values_of_get? bound) (Table.mem_values_of_get? isFree)

/-- The match is exact. -/
theorem isExact : IsExact [pool] free [found.group] := by
  refine ⟨.cons ⟨members, spelled.defined, ?_, ?_⟩ .nil, fun key isFree =>
    ⟨_, List.mem_singleton_self _, members, spelled.defined, spelled.mem_soughtFree_iff.mpr isFree⟩⟩
  · refine List.filter_eq_nil_iff.mpr fun key isBound => ?_
    obtain ⟨attr, bound⟩ := Table.mem_keys_iff.mp isBound
    obtain ⟨identifier, member, _, looked⟩ := spelled.exists_lookupKey (.inl bound)
    simpa [SidePool.sought] using ⟨identifier, member, looked⟩
  · refine List.filter_eq_nil_iff.mpr fun key listed => ?_
    have isFree := spelled.mem_soughtFree_iff.mp listed
    simpa [Table.contains_iff] using isFree

/-- A group that everything is used for has the same members. -/
theorem members_eq_of_isFilled {other : IdGroup} (filled : IsFilled [pool] free [other]) :
    pool.referred.identifiers.members? other = some members := by
  obtain ⟨possible, _⟩ := List.forall₂_cons.mp filled.sides
  obtain ⟨others, alsoDefined, unsought, unanswered⟩ := possible.resolve_right fun forced => by
    -- there is nothing to be forced, as all bound attributes carry renames
    obtain ⟨_, _, key, _, left, _, plain⟩ := forced
    have isBound : key ∈ pool.bound.keys := (List.mem_filter.mp (left ▸ List.mem_singleton_self key)).1
    obtain ⟨attr, bound⟩ := Table.mem_keys_iff.mp isBound
    exact plain attr bound (spelled.renamed key attr bound)
  rw [alsoDefined]
  refine congrArg some (eq_of_sublist_of_mem_iff spelled.regular.names_nodup
    (spelled.regular.ordered _ _ alsoDefined) (spelled.regular.ordered _ _ spelled.defined)
    fun identifier => ⟨fun listed => ?_, fun member => ?_⟩)
  · -- a member of the other group is looked for under a name that some attribute goes by
    have alsoOwned := spelled.regular.owned alsoDefined listed
    have sought : pool.lookupKey free identifier ∈ pool.sought free others := List.mem_map_of_mem listed
    obtain ⟨attr, offered⟩ : ∃ attr, pool.Offers free (pool.lookupKey free identifier) attr := by
      by_cases isBound : pool.lookupKey free identifier ∈ pool.bound.keys
      · exact (Table.mem_keys_iff.mp isBound).imp fun attr => .inl
      · have beyond : pool.lookupKey free identifier ∈ pool.soughtFree free others :=
          List.mem_diff_of_mem sought isBound
        have answered := List.filter_eq_nil_iff.mp unanswered _ beyond
        simp only [Bool.not_eq_true', Bool.not_eq_false] at answered
        exact (Table.contains_eq_true_iff.mp answered).imp fun attr => .inr
    exact spelled.mem_of_assigned ((spelled.offers_lookupKey_iff alsoOwned).mp offered)
  · -- the name that a member is looked for under is sought by the other group as well
    have isOwned := spelled.owned member
    obtain ⟨attr, assigned⟩ := Table.mem_keys_iff.mp ((spelled.keys identifier).mpr member)
    have sought : pool.lookupKey free identifier ∈ pool.sought free others := by
      rcases (spelled.offers_lookupKey_iff isOwned).mpr assigned with bound | isFree
      · simpa using List.filter_eq_nil_iff.mp unsought _ (Table.mem_keys_of_get? bound)
      · obtain ⟨entry, listed, uses⟩ := filled.used _ (Table.mem_keys_of_get? isFree)
        obtain rfl := List.mem_singleton.mp listed
        obtain ⟨_, known, beyond⟩ := uses
        cases alsoDefined.symm.trans known
        exact List.diff_subset _ _ beyond
    obtain ⟨namesake, listed, same⟩ := List.mem_map.mp sought
    rwa [← spelled.eq_of_lookupKey (spelled.regular.owned alsoDefined listed) isOwned same]

/-- A match by name of the same group is the same. -/
theorem alike_of_isByName {other : SideMatch} (sameSide : found.side = pool.side)
    (sameReferred : found.referred = pool.referred.name) (group : other.group = found.group)
    (byName : other.IsByName pool free) : found.Alike other := by
  obtain ⟨others, alsoDefined, alsoKeys⟩ := byName.members
  rw [group, spelled.defined] at alsoDefined
  cases alsoDefined
  refine ⟨sameSide.trans byName.side.symm, sameReferred.trans byName.referred.symm, group.symm,
    fun identifier => ?_⟩
  cases assigned : other.assignment.get? identifier with
  | none =>
    rw [Table.get?_eq_none_iff] at assigned ⊢
    rwa [spelled.keys, ← alsoKeys]
  | some attr =>
    have member := (alsoKeys identifier).mp (Table.mem_keys_of_get? assigned)
    exact (spelled.offers_lookupKey_iff (spelled.owned member)).mp (byName.named identifier attr assigned)

end SideMatch.IsSpelledOut

theorem NamePool.exists_ofAttributes {attrs : List Name} {renames : Table Name Name} (distinct : attrs.Nodup)
    (apart : ∀ first ∈ attrs, ∀ second ∈ attrs, keyOf renames first = keyOf renames second → first = second) :
    ∃ pool, ofAttributes attrs renames = .ok pool := by
  have keys : (attrs.map (keyOf renames)).Nodup := distinct.map_on apart
  refine ⟨⟨attrs.map fun attr => (keyOf renames attr, attr), ?_⟩, ofAttributes_eq_ok_iff.mpr ⟨keys, rfl⟩⟩
  rwa [List.map_map]

/-- Whether each attribute of a list that a match uses keeps its rename, or else carries the name of the
member that it stands in for. -/
def SideMatch.SpellsOut (found : SideMatch) (attrs : List Name) (renames explicit : Table Name Name) : Prop :=
  ∀ identifier attr, found.assignment.get? identifier = some attr → attr ∈ attrs →
    explicit.get? attr = some ((renames.get? attr).getD identifier)

/-- An attribute then goes by a name that its member is called by. -/
theorem SideMatch.SpellsOut.isCalled {found : SideMatch} {attrs : List Name}
    {renames explicit : Table Name Name} (spells : found.SpellsOut attrs renames explicit)
    {cls : Resolved.Class} {identifier attr : Name}
    (assigned : found.assignment.get? identifier = some attr) (listed : attr ∈ attrs)
    (called : ∀ name, renames.get? attr = some name → cls.IsCalled identifier (Text.lowercase name)) :
    cls.IsCalled identifier (NamePool.keyOf explicit attr) := by
  rw [NamePool.keyOf, spells identifier attr assigned listed, Option.getD_some]
  cases renamed : renames.get? attr with
  | none => exact .inl rfl
  | some name => exact called name renamed

namespace SideMatch.IsSole

variable {source : SourceSide} {attrs : List Name} {general renames explicit : Table Name Name}
  {found : SideMatch} (alone : found.IsSole source attrs general) (regular : source.referred.IsRegular)

include alone regular

theorem owned {identifier attr : Name} (assigned : found.assignment.get? identifier = some attr) :
    identifier ∈ source.referred.attributes.map (·.name) := by
  obtain ⟨members, defined, keys, _⟩ := alone.members
  exact regular.owned defined ((keys identifier).mp (Table.mem_keys_of_get? assigned))

/-- Attributes in use that go by one name that their members are called by are one. -/
theorem eq_of_key {others : List Name} {key : Name → Name}
    (inUse : ∀ attr ∈ others, attr ∈ source.bound ∨ attr ∈ attrs)
    (called : ∀ identifier attr, found.assignment.get? identifier = some attr → attr ∈ others →
      source.referred.IsCalled identifier (key attr)) :
    ∀ first ∈ others, ∀ second ∈ others, key first = key second → first = second := by
  intro first firstListed second secondListed same
  obtain ⟨one, firstAssigned⟩ := Table.mem_values_iff.mp ((alone.used first).mpr (inUse first firstListed))
  obtain ⟨two, secondAssigned⟩ := Table.mem_values_iff.mp ((alone.used second).mpr (inUse second secondListed))
  obtain rfl := regular.eq_of_isCalled (alone.owned regular firstAssigned) (alone.owned regular secondAssigned)
    (called one first firstAssigned firstListed) (same ▸ called two second secondAssigned secondListed)
  rw [firstAssigned] at secondAssigned
  exact Option.some.inj secondAssigned

variable (disjoint : ∀ attr ∈ source.bound, attr ∉ attrs)
  (bound : found.SpellsOut source.bound source.renames renames) (free : found.SpellsOut attrs general explicit)

include disjoint bound free

/-- With the match written out there are pools, and their names tell the match. -/
theorem exists_pools : ∃ pool names members, SourceSide.pool { source with renames } = .ok pool ∧
    NamePool.ofAttributes attrs explicit = .ok names ∧ found.IsSpelledOut pool names members ∧
    pool.side = source.side ∧ pool.referred = source.referred := by
  obtain ⟨members, defined, keys, _⟩ := alone.members
  have boundCalled : ∀ identifier attr, found.assignment.get? identifier = some attr → attr ∈ source.bound →
      source.referred.IsCalled identifier (NamePool.keyOf renames attr) :=
    fun identifier attr assigned listed =>
      bound.isCalled assigned listed (alone.boundCalled identifier attr assigned listed)
  have freeCalled : ∀ identifier attr, found.assignment.get? identifier = some attr → attr ∈ attrs →
      source.referred.IsCalled identifier (NamePool.keyOf explicit attr) :=
    fun identifier attr assigned listed =>
      free.isCalled assigned listed (alone.freeCalled identifier attr assigned listed)
  obtain ⟨pool, bounded⟩ := NamePool.exists_ofAttributes alone.boundNodup
    (alone.eq_of_key regular (fun _ => .inl) boundCalled)
  obtain ⟨names, named⟩ := NamePool.exists_ofAttributes alone.freeNodup
    (alone.eq_of_key regular (fun _ => .inr) freeCalled)
  have pooled : SourceSide.pool { source with renames } =
      .ok ⟨source.side, source.referred, pool, renames.keys⟩ :=
    bind_eq_ok_iff.mpr ⟨pool, bounded, rfl⟩
  have offers : ∀ key attr, SidePool.Offers ⟨source.side, source.referred, pool, renames.keys⟩ names key attr ↔
      (attr ∈ source.bound ∧ NamePool.keyOf renames attr = key) ∨
        (attr ∈ attrs ∧ NamePool.keyOf explicit attr = key) :=
    fun key attr => or_congr (NamePool.get?_ofAttributes bounded) (NamePool.get?_ofAttributes named)
  refine ⟨_, names, members, pooled, named, ⟨regular, SourceSide.apart_of_pool pooled named disjoint, defined,
    keys, fun identifier attr assigned => ?_, fun key attr offered => ?_, fun key attr isBound => ?_⟩, rfl, rfl⟩
  · rcases (alone.used attr).mp (Table.mem_values_of_get? assigned) with isBound | isFree
    · exact ⟨_, (offers _ _).mpr (.inl ⟨isBound, rfl⟩), boundCalled identifier attr assigned isBound⟩
    · exact ⟨_, (offers _ _).mpr (.inr ⟨isFree, rfl⟩), freeCalled identifier attr assigned isFree⟩
  · exact Table.mem_values_iff.mp ((alone.used attr).mpr (((offers _ _).mp offered).imp And.left And.left))
  · have listed := ((NamePool.get?_ofAttributes bounded).mp isBound).1
    obtain ⟨identifier, assigned⟩ := Table.mem_values_iff.mp ((alone.used attr).mpr (.inl listed))
    exact Table.mem_keys_of_get? (bound identifier attr assigned listed)

end SideMatch.IsSole

/-- A match of an only side that is written out is found again. -/
theorem Partition.match?_explicit {partition : Partition} {source : SourceSide}
    {general renames explicit : Table Name Name} {found : SideMatch} (sole : partition.sources = [source])
    (regular : source.referred.IsRegular) (disjoint : ∀ attr ∈ source.bound, attr ∉ partition.free)
    (matched : partition.match? general = .ok [found])
    (bound : found.SpellsOut source.bound source.renames renames)
    (free : found.SpellsOut partition.free general explicit) :
    ∃ other, match? { partition with sources := [{ source with renames }] } explicit = .ok [other] ∧
      found.Alike other := by
  have alone := isSole_of_match? sole regular disjoint matched
  obtain ⟨pool, names, members, pooled, named, spelled, side, referred⟩ :=
    alone.exists_pools regular disjoint bound free
  have only : ∀ choice, IsFilled [pool] names choice → choice = [found.group] := by
    intro choice filled
    obtain ⟨group, rest, _, none, rfl⟩ := List.forall₂_cons_left_iff.mp filled.sides
    obtain rfl := List.forall₂_nil_left_iff.mp none
    obtain ⟨others, defined, _, unique⟩ := alone.members
    have same := spelled.defined
    rw [referred, defined] at same
    cases same
    rw [unique group (referred ▸ spelled.members_eq_of_isFilled filled)]
  let written : Partition := { partition with sources := [{ source with renames }] }
  have pools : List.Forall₂ (fun source pool => source.pool = .ok pool) written.sources [pool] :=
    .cons pooled .nil
  obtain ⟨others, given, groups, byName⟩ :=
    match?_of_only (show NamePool.ofAttributes written.free _ = _ from named) pools spelled.isExact only
  obtain ⟨other, rest, isByName, none, rfl⟩ := List.forall₂_cons_left_iff.mp byName
  obtain rfl := List.forall₂_nil_left_iff.mp none
  exact ⟨other, given, spelled.alike_of_isByName (alone.side.trans side.symm)
    (alone.referred.trans (congrArg _ referred.symm)) (List.cons.inj groups).1 isByName⟩

end ClassModel
