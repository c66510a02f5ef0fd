import ClassModel.Proofs.SoughtNames

/-! # Groups matched by name

A candidate of a side without an open slot comes about in one of two ways: its group is matched by name
alone, or it is so but for one member, onto which the last bound attribute is forced. In either case it
consumes the free names that are sought beyond the bound ones.
-/

namespace ClassModel

namespace SidePool

variable (pool : SidePool) (free : NamePool)

/-- The candidates of a side. -/
abbrev candidates : List GroupCandidate := (pool.outcomes free).filterMap (·.candidate?)

/-- Whether a group is matched by name alone: every bound name is sought and every name sought is answered. -/
def IsNamed (group : IdGroup) : Prop :=
  ∃ members, pool.referred.identifiers.members? group = some members ∧
    pool.unsought free members = [] ∧ pool.unanswered free members = []

/-- Whether a group is matched by name but for one member, onto which the one bound attribute of another
name can be forced because it carries no rename. -/
def IsForced (group : IdGroup) : Prop :=
  ∃ members, pool.referred.identifiers.members? group = some members ∧ ∃ key name,
    pool.unsought free members = [key] ∧ pool.unanswered free members = [name] ∧
    ∀ attr, pool.bound.get? key = some attr → attr ∉ pool.renamed

/-- Whether a group uses the free attribute of a name. -/
def Uses (group : IdGroup) (key : Name) : Prop :=
  ∃ members, pool.referred.identifiers.members? group = some members ∧ key ∈ pool.soughtFree free members

instance (group : IdGroup) : Decidable (pool.IsNamed free group) :=
  decidable_of_iff (∃ members ∈ pool.referred.identifiers.members? group,
    pool.unsought free members = [] ∧ pool.unanswered free members = []) Iff.rfl

instance (group : IdGroup) : Decidable (pool.IsForced free group) :=
  decidable_of_iff (∃ members ∈ pool.referred.identifiers.members? group,
    ∃ key ∈ pool.unsought free members, ∃ name ∈ pool.unanswered free members,
      pool.unsought free members = [key] ∧ pool.unanswered free members = [name] ∧
        ∀ attr ∈ pool.bound.get? key, attr ∉ pool.renamed) (by
    refine exists_congr fun members => and_congr_right fun _ => ?_
    constructor
    · rintro ⟨key, _, name, _, only, single, plain⟩
      exact ⟨key, name, only, single, plain⟩
    · rintro ⟨key, name, only, single, plain⟩
      exact ⟨key, by simp [only], name, by simp [single], only, single, plain⟩)

instance (group : IdGroup) (key : Name) : Decidable (pool.Uses free group key) :=
  decidable_of_iff (∃ members ∈ pool.referred.identifiers.members? group,
    key ∈ pool.soughtFree free members) Iff.rfl

variable {pool free}

theorem IsNamed.not_isForced {group : IdGroup} (named : pool.IsNamed free group) :
    ¬ pool.IsForced free group := by
  rintro ⟨members, defined, key, name, left, _⟩
  obtain ⟨same, known, none, _⟩ := named
  rw [known] at defined
  cases defined
  rw [none] at left
  cases left

theorem mem_candidates_iff {candidate : GroupCandidate} : candidate ∈ pool.candidates free ↔
    ∃ group members, pool.referred.identifiers.members? group = some members ∧
      (pool.complete group (pool.draft free members)).candidate? = some candidate := by
  simp only [candidates, outcomes, List.mem_filterMap, List.mem_map, Prod.exists]
  constructor
  · rintro ⟨_, ⟨group, members, listed, rfl⟩, given⟩
    exact ⟨group, members, Identifiers.mem_groups_iff.mp listed, given⟩
  · rintro ⟨group, members, defined, given⟩
    exact ⟨_, ⟨group, members, Identifiers.mem_groups_iff.mpr defined, rfl⟩, given⟩

theorem group_of_complete {group : IdGroup} {draft : GroupDraft} {candidate : GroupCandidate}
    (given : (pool.complete group draft).candidate? = some candidate) : candidate.found.group = group := by
  unfold complete at given
  split at given
  · split at given <;> cases given
    rfl
  · split at given
    · cases given
      rfl
    · split at given
      · cases given
      · split at given <;> cases given
        rfl
  · cases given

/-- A side has at most one candidate of a group. -/
theorem eq_of_group {first second : GroupCandidate} (one : first ∈ pool.candidates free)
    (two : second ∈ pool.candidates free) (same : first.found.group = second.found.group) :
    first = second := by
  obtain ⟨group, members, defined, given⟩ := mem_candidates_iff.mp one
  obtain ⟨other, others, alsoDefined, alsoGiven⟩ := mem_candidates_iff.mp two
  rw [group_of_complete given, group_of_complete alsoGiven] at same
  subst same
  rw [defined] at alsoDefined
  cases alsoDefined
  rw [given] at alsoGiven
  exact Option.some.inj alsoGiven

theorem nodup_candidates : (pool.candidates free).Nodup := by
  have groups : ((pool.candidates free).map (·.found.group)).Sublist pool.referred.identifiers.defined := by
    unfold candidates outcomes Identifiers.defined
    rw [List.filterMap_map]
    generalize pool.referred.identifiers.groups = groups
    induction groups with
    | nil => exact .refl _
    | cons entry rest ih =>
      rw [List.filterMap_cons]
      split
      · exact ih.cons _
      · rename_i candidate given
        rw [List.map_cons, List.map_cons, group_of_complete given]
        exact ih.cons_cons _
  exact (groups.nodup (Identifiers.nodup_defined _)).of_map _

section Closing

variable {members : List Name}

theorem isEmpty_remaining_iff :
    (pool.draft free members).remaining.entries = [] ↔ pool.unsought free members = [] := by
  have perm := pool.keys_remaining_perm free members
  constructor
  · intro gone
    rw [Table.keys, gone] at perm
    exact perm.nil_eq.symm
  · intro none
    rw [none] at perm
    exact List.map_eq_nil_iff.mp perm.eq_nil

theorem unmatched_eq_nil_iff :
    (pool.draft free members).unmatched = [] ↔ pool.unanswered free members = [] := by
  have perm := pool.unmatched_perm free members
  constructor
  · intro none
    rw [none] at perm
    exact perm.nil_eq.symm
  · intro none
    rw [none] at perm
    exact List.map_eq_nil_iff.mp perm.eq_nil

/-- An attribute that remains alone goes by the one bound name that nothing is sought under. -/
theorem remaining_eq_singleton_iff {key attr : Name} :
    (pool.draft free members).remaining.entries = [(key, attr)] ↔
      pool.unsought free members = [key] ∧ pool.bound.get? key = some attr := by
  have perm := pool.keys_remaining_perm free members
  have found : ∀ key, key ∈ pool.unsought free members →
      (pool.draft free members).remaining.get? key = pool.bound.get? key := by
    intro key listed
    rw [(pool.draft_answers free members).remaining, if_neg]
    simpa [sought] using (List.mem_filter.mp listed).2
  constructor
  · intro left
    have single : pool.unsought free members = [key] := by
      rw [Table.keys, left] at perm
      exact List.perm_singleton.mp perm.symm
    refine ⟨single, ?_⟩
    rw [← found key (by simp [single]), Table.get?_eq_some_iff, left]
    exact List.mem_singleton_self _
  · rintro ⟨single, known⟩
    rw [single] at perm
    obtain ⟨entry, left⟩ : ∃ entry, (pool.draft free members).remaining.entries = [entry] := by
      rw [← List.length_eq_one_iff]
      simpa [Table.keys] using perm.length_eq
    rw [← found key (by simp [single]), Table.get?_eq_some_iff, left, List.mem_singleton] at known
    rw [left, known]

theorem exists_unmatched_singleton_iff :
    (∃ identifier, (pool.draft free members).unmatched = [identifier]) ↔
      ∃ name, pool.unanswered free members = [name] := by
  have same := (pool.unmatched_perm free members).length_eq
  rw [← List.length_eq_one_iff, ← List.length_eq_one_iff, ← same, List.length_map]

end Closing

/-- A candidate without an open slot is matched by name alone, or forces one bound attribute. -/
theorem complete_closed_iff {group : IdGroup} {draft : GroupDraft} {candidate : GroupCandidate} :
    ((pool.complete group draft).candidate? = some candidate ∧ candidate.openSlot = none) ↔
      (draft.unmatched = [] ∧ draft.remaining.entries = [] ∧
        pool.candidate group draft.assignment draft.consumed none = candidate) ∨
      ∃ identifier key attr, draft.unmatched = [identifier] ∧ draft.remaining.entries = [(key, attr)] ∧
        attr ∉ pool.renamed ∧
        pool.candidate group (draft.assignment.insert identifier attr) draft.consumed none = candidate := by
  constructor
  · rintro ⟨given, closed⟩
    unfold complete at given
    split at given
    · rename_i matched
      split at given
      · rename_i gone
        cases given
        exact .inl ⟨matched, List.isEmpty_iff.mp gone, rfl⟩
      · cases given
    · rename_i identifier single
      split at given
      · cases given
        cases closed
      · rename_i key attr others left
        split at given
        · cases given
        · rename_i plain
          split at given
          · rename_i last
            cases given
            exact .inr ⟨identifier, key, attr, single, List.isEmpty_iff.mp last ▸ left, plain, rfl⟩
          · cases given
    · cases given
  · rintro (⟨matched, gone, rfl⟩ | ⟨identifier, key, attr, single, left, plain, rfl⟩)
    · simp [complete, matched, Table.isEmpty, gone, candidate]
    · simp [complete, single, left, plain, candidate]

/-- A candidate without an open slot is of a group that is matched by name or by one bound attribute
forced, and consumes the free names that the group uses. -/
theorem of_closed {candidate : GroupCandidate} (listed : candidate ∈ pool.candidates free)
    (closed : candidate.openSlot = none) :
    (pool.IsNamed free candidate.found.group ∨ pool.IsForced free candidate.found.group) ∧
      ∀ key, key ∈ candidate.consumed ↔
        pool.Uses free candidate.found.group key ∧ free.contains key = true := by
  obtain ⟨group, members, defined, given⟩ := mem_candidates_iff.mp listed
  have uses : ∀ key, pool.Uses free group key ↔ key ∈ pool.soughtFree free members := by
    intro key
    simp [Uses, defined]
  obtain ⟨matched, gone, rfl⟩ | ⟨identifier, key, attr, single, left, plain, rfl⟩ :=
    complete_closed_iff.mp ⟨given, closed⟩
  · refine ⟨.inl ⟨members, defined, isEmpty_remaining_iff.mp gone, unmatched_eq_nil_iff.mp matched⟩,
      fun key => ?_⟩
    rw [candidate, uses]
    exact pool.mem_consumed_iff free members
  · obtain ⟨unsought, known⟩ := remaining_eq_singleton_iff.mp left
    obtain ⟨name, unanswered⟩ := exists_unmatched_singleton_iff.mp ⟨identifier, single⟩
    refine ⟨.inr ⟨members, defined, key, name, unsought, unanswered, fun other found => ?_⟩, fun key => ?_⟩
    · rw [known] at found
      cases found
      exact plain
    · rw [candidate, uses]
      exact pool.mem_consumed_iff free members

/-- A group that is matched by name or by one bound attribute forced has a candidate without an open slot. -/
theorem exists_closed {group : IdGroup} (possible : pool.IsNamed free group ∨ pool.IsForced free group) :
    ∃ candidate ∈ pool.candidates free, candidate.found.group = group ∧ candidate.openSlot = none := by
  obtain ⟨members, defined, none, all⟩ | ⟨members, defined, key, name, left, lacking, plain⟩ := possible
  · obtain ⟨given, closed⟩ := complete_closed_iff.mpr
      (.inl ⟨unmatched_eq_nil_iff.mpr all, isEmpty_remaining_iff.mpr none, rfl⟩)
    exact ⟨_, mem_candidates_iff.mpr ⟨group, members, defined, given⟩, rfl, closed⟩
  · have isBound : key ∈ pool.bound.keys :=
      (List.mem_filter.mp (show key ∈ pool.unsought free members by simp [left])).1
    obtain ⟨attr, known⟩ := Table.mem_keys_iff.mp isBound
    obtain ⟨identifier, single⟩ := exists_unmatched_singleton_iff.mpr ⟨name, lacking⟩
    obtain ⟨given, closed⟩ := complete_closed_iff.mpr (.inr ⟨identifier, key, attr, single,
      remaining_eq_singleton_iff.mpr ⟨left, known⟩, plain attr known, rfl⟩)
    exact ⟨_, mem_candidates_iff.mpr ⟨group, members, defined, given⟩, rfl, closed⟩

/-- The name of an open slot is consumed and is no free one. -/
theorem of_open {candidate : GroupCandidate}
    (listed : candidate ∈ pool.candidates free) {slot : OpenSlot} (opened : candidate.openSlot = some slot) :
    slot.key ∈ candidate.consumed ∧ free.get? slot.key = none := by
  obtain ⟨group, members, _, given⟩ := mem_candidates_iff.mp listed
  have lacking : ∀ identifier ∈ (pool.draft free members).unmatched,
      free.get? (Text.lowercase identifier) = none := by
    intro identifier left
    have unanswered := (pool.unmatched_perm free members).mem_iff.mp (List.mem_map_of_mem left)
    have absent : free.get? (pool.lookupKey free identifier) = none := by
      apply Table.contains_eq_false_iff.mp
      simpa using (List.mem_filter.mp unanswered).2
    exact free_of_lookupKey absent
  unfold complete at given
  split at given
  · split at given <;> cases given
    cases opened
  · rename_i identifier single
    split at given
    · cases given
      cases opened
      exact ⟨NameSet.mem_insert.mpr (.inl rfl), lacking identifier (by simp [single])⟩
    · split at given
      · cases given
      · split at given <;> cases given
        cases opened
  · cases given

/-- What a candidate consumes are free names and the name of its open slot. -/
theorem free_or_slot {candidate : GroupCandidate} (listed : candidate ∈ pool.candidates free)
    {key : Name} (consumed : key ∈ candidate.consumed) :
    free.contains key = true ∨ ∃ slot, candidate.openSlot = some slot ∧ slot.key = key := by
  obtain ⟨group, members, _, given⟩ := mem_candidates_iff.mp listed
  have drafted : key ∈ (pool.draft free members).consumed → free.contains key = true :=
    fun early => ((pool.mem_consumed_iff free members).mp early).2
  unfold complete at given
  split at given
  · split at given <;> cases given
    exact .inl (drafted consumed)
  · split at given
    · cases given
      rcases NameSet.mem_insert.mp consumed with rfl | early
      · exact .inr ⟨_, rfl, rfl⟩
      · exact .inl (drafted early)
    · split at given
      · cases given
      · split at given <;> cases given
        exact .inl (drafted consumed)
  · cases given

end SidePool

/-- A match of a side by name alone: every member of the group has an attribute, and that attribute goes by
the name under which the member is looked for. -/
structure SideMatch.IsByName (pool : SidePool) (free : NamePool) (found : SideMatch) : Prop where
  side : found.side = pool.side
  referred : found.referred = pool.referred.name
  members : ∃ members, pool.referred.identifiers.members? found.group = some members ∧
    ∀ identifier, identifier ∈ found.assignment.keys ↔ identifier ∈ members
  named : ∀ identifier attr, found.assignment.get? identifier = some attr →
    pool.bound.get? (pool.lookupKey free identifier) = some attr ∨
      free.get? (pool.lookupKey free identifier) = some attr

/-- The candidate of a group that is matched by name alone is matched so. -/
theorem SidePool.isByName_of_named {pool : SidePool} {free : NamePool} {candidate : GroupCandidate}
    (listed : candidate ∈ pool.candidates free) (named : pool.IsNamed free candidate.found.group) :
    candidate.found.IsByName pool free := by
  obtain ⟨group, members, defined, given⟩ := mem_candidates_iff.mp listed
  obtain ⟨same, known, none, all⟩ := named
  rw [group_of_complete given, defined] at known
  cases known
  have matched := unmatched_eq_nil_iff.mpr all
  obtain ⟨byName, _⟩ := complete_closed_iff.mpr (.inl ⟨matched, isEmpty_remaining_iff.mpr none, rfl⟩)
  rw [given] at byName
  cases byName
  refine ⟨rfl, rfl, ⟨members, defined, fun identifier => ?_⟩, fun identifier attr assigned => ?_⟩
  · rw [(pool.draft_answers free members).members, matched]
    simp [candidate]
  · exact ((pool.draft_pairs free members).named identifier attr assigned).imp And.left And.left

end ClassModel
