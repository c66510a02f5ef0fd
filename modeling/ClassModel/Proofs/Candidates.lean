import ClassModel.Analysis.Matching
import ClassModel.Proofs.NameSets
import ClassModel.Proofs.Partitions

/-! # What a candidate uses

A candidate of a side covers its identifier group: every member has an attribute, but perhaps for
the one that its open slot names. It uses every attribute bound to the side, otherwise only free
ones, and the names it consumes are those of the free attributes in use and that of its open slot.
-/

namespace ClassModel

namespace NamePool

/-- The pool of some attributes holds each of them under the name that it goes by. -/
theorem ofAttributes_eq_ok_iff {attrs : List Name} {renames : Table Name Name} {pool : NamePool} :
    ofAttributes attrs renames = .ok pool ↔ (attrs.map (keyOf renames)).Nodup ∧
      pool.entries = attrs.map fun attr => (keyOf renames attr, attr) := by
  refine Table.foldlM_insertNew_eq_ok_iff (keyOf renames) id ?_ ?_
  · intro attr _ pool absent
    simp [add, Table.contains, absent]
  · intro attr _ pool next ran
    unfold add at ran
    split at ran
    · simp at ran
    · rename_i absent
      simpa [Table.contains] using absent

theorem values_ofAttributes {attrs : List Name} {renames : Table Name Name} {pool : NamePool}
    (success : ofAttributes attrs renames = .ok pool) : pool.values = attrs := by
  simp [Table.values, (ofAttributes_eq_ok_iff.mp success).2, Function.comp_def]

end NamePool

namespace GroupDraft

/-- What holds of a draft after some members: each of them is matched or left unmatched, every
bound attribute is in use or remains, and what is consumed is in use. -/
structure Covers (bound free : NamePool) (keyOf : Name → Name) (members : List Name)
    (draft : GroupDraft) : Prop where
  members_iff : ∀ identifier,
    identifier ∈ members ↔ identifier ∈ draft.assignment.keys ∨ identifier ∈ draft.unmatched
  unmatched : ∀ identifier ∈ draft.unmatched,
    identifier ∉ draft.assignment.keys ∧ free.get? (keyOf identifier) = none
  remaining : ∀ key attr, draft.remaining.get? key = some attr → bound.get? key = some attr
  used : ∀ key attr, bound.get? key = some attr →
    draft.remaining.get? key = some attr ∨ attr ∈ draft.assignment.values
  values : ∀ attr ∈ draft.assignment.values, attr ∈ bound.values ∨ attr ∈ free.values
  consumed : ∀ key ∈ draft.consumed,
    ∃ attr, free.get? key = some attr ∧ attr ∈ draft.assignment.values

variable {bound free : NamePool} {keyOf : Name → Name}

theorem covers_start : Covers bound free keyOf [] { remaining := bound } where
  members_iff := by simp
  unmatched := by simp
  remaining := fun _ _ found => found
  used := fun _ _ found => .inl found
  values := by simp [Table.values]
  consumed := by simp

section Taking

variable {members : List Name} {draft : GroupDraft} (covers : Covers bound free keyOf members draft)
  {identifier : Name}

include covers

theorem Covers.absent (fresh : identifier ∉ members) :
    identifier ∉ draft.assignment.keys ∧ identifier ∉ draft.unmatched := by
  rw [covers.members_iff] at fresh
  tauto

/-- A member matched with a bound attribute takes it from those that remain. -/
theorem Covers.takeBound (fresh : identifier ∉ members) {attr : Name}
    (taken : draft.remaining.get? (keyOf identifier) = some attr) :
    Covers bound free keyOf (members ++ [identifier])
      { draft with
        remaining := draft.remaining.erase (keyOf identifier)
        assignment := draft.assignment.insert identifier attr } := by
  have absent := covers.absent fresh
  have known := covers.remaining _ _ taken
  constructor
  · intro other
    simp only [List.mem_append, List.mem_singleton, covers.members_iff, Table.mem_keys_insert]
    tauto
  · intro other present
    have different : other ≠ identifier := fun same => absent.2 (same ▸ present)
    simpa [different] using covers.unmatched other present
  · intro key other found
    rw [Table.get?_erase] at found
    split at found
    · simp at found
    · exact covers.remaining _ _ found
  · intro key other found
    by_cases same : keyOf identifier = key
    · rw [← same, known] at found
      cases found
      exact .inr (Table.mem_values_insert_self ..)
    · rcases covers.used key other found with left | inUse
      · exact .inl (by rw [Table.get?_erase, if_neg same, left])
      · exact .inr (Table.mem_values_insert_of_absent absent.1 inUse)
  · intro other present
    rcases Table.mem_values_insert present with rfl | early
    · exact .inl (Table.mem_values_of_get? known)
    · exact covers.values other early
  · intro key present
    obtain ⟨other, found, inUse⟩ := covers.consumed key present
    exact ⟨other, found, Table.mem_values_insert_of_absent absent.1 inUse⟩

/-- A member matched with a free attribute leaves the bound ones as they are. -/
theorem Covers.takeFree (fresh : identifier ∉ members) {attr : Name}
    (found : free.get? (keyOf identifier) = some attr) :
    Covers bound free keyOf (members ++ [identifier])
      { draft with
        consumed := draft.consumed.insert (keyOf identifier)
        assignment := draft.assignment.insert identifier attr } := by
  have absent := covers.absent fresh
  constructor
  · intro other
    simp only [List.mem_append, List.mem_singleton, covers.members_iff, Table.mem_keys_insert]
    tauto
  · intro other present
    have different : other ≠ identifier := fun same => absent.2 (same ▸ present)
    simpa [different] using covers.unmatched other present
  · exact covers.remaining
  · intro key other known
    rcases covers.used key other known with left | inUse
    · exact .inl left
    · exact .inr (Table.mem_values_insert_of_absent absent.1 inUse)
  · intro other present
    rcases Table.mem_values_insert present with rfl | early
    · exact .inr (Table.mem_values_of_get? found)
    · exact covers.values other early
  · intro key present
    rcases NameSet.mem_insert.mp present with rfl | early
    · exact ⟨attr, found, Table.mem_values_insert_self ..⟩
    · obtain ⟨other, known, inUse⟩ := covers.consumed key early
      exact ⟨other, known, Table.mem_values_insert_of_absent absent.1 inUse⟩

/-- A member without an attribute of its name stays unmatched. -/
theorem Covers.leave (fresh : identifier ∉ members) (unknown : free.get? (keyOf identifier) = none) :
    Covers bound free keyOf (members ++ [identifier])
      { draft with unmatched := draft.unmatched ++ [identifier] } := by
  constructor
  · intro other
    simp only [List.mem_append, List.mem_singleton, covers.members_iff, or_assoc]
  · intro other present
    rcases List.mem_append.mp present with early | new
    · exact covers.unmatched other early
    · rw [List.mem_singleton.mp new]
      exact ⟨(covers.absent fresh).1, unknown⟩
  · exact covers.remaining
  · exact covers.used
  · exact covers.values
  · exact covers.consumed

/-- Matching one more member keeps what holds of a draft. -/
theorem Covers.take (fresh : identifier ∉ members) :
    Covers bound free keyOf (members ++ [identifier]) (draft.take free keyOf identifier) := by
  unfold GroupDraft.take
  split
  · rename_i attr taken
    exact covers.takeBound fresh taken
  · split
    · rename_i attr found
      exact covers.takeFree fresh found
    · rename_i unknown
      exact covers.leave fresh unknown

end Taking

/-- Matching all members of a group, which are distinct, covers the group. -/
theorem Covers.foldl_take {done members : List Name} {draft : GroupDraft}
    (covers : Covers bound free keyOf done draft) (distinct : (done ++ members).Nodup) :
    Covers bound free keyOf (done ++ members) (members.foldl (GroupDraft.take free keyOf) draft) := by
  induction members generalizing done draft with
  | nil => simpa using covers
  | cons identifier rest ih =>
    have fresh : identifier ∉ done := fun present =>
      (List.nodup_append.mp distinct).2.2 _ present _ (List.mem_cons_self ..) rfl
    rw [List.append_cons] at distinct ⊢
    exact ih (covers.take fresh) distinct

end GroupDraft

theorem SidePool.draft_covers (pool : SidePool) (free : NamePool) {members : List Name}
    (distinct : members.Nodup) :
    (pool.draft free members).Covers pool.bound free (pool.lookupKey free) members :=
  GroupDraft.Covers.foldl_take GroupDraft.covers_start (by simpa using distinct)

namespace GroupCandidate

/-- What holds of a candidate of a side. -/
structure Covers (pool : SidePool) (free : NamePool) (candidate : GroupCandidate) : Prop where
  side : candidate.found.side = pool.side
  referred : candidate.found.referred = pool.referred.name
  members : ∃ members, pool.referred.identifiers.members? candidate.found.group = some members ∧
    ∀ identifier, identifier ∈ members ↔ identifier ∈ candidate.found.assignment.keys ∨
      ∃ slot, candidate.openSlot = some slot ∧ slot.identifier = identifier
  bound : ∀ attr ∈ pool.bound.values, attr ∈ candidate.found.assignment.values
  values : ∀ attr ∈ candidate.found.assignment.values, attr ∈ pool.bound.values ∨ attr ∈ free.values
  consumed : ∀ key ∈ candidate.consumed,
    (∃ attr, free.get? key = some attr ∧ attr ∈ candidate.found.assignment.values) ∨
      ∃ slot, candidate.openSlot = some slot ∧ slot.key = key
  openSlot : ∀ slot, candidate.openSlot = some slot → slot.key ∈ candidate.consumed ∧
    free.get? slot.key = none ∧ slot.identifier ∉ candidate.found.assignment.keys

end GroupCandidate

namespace SidePool

/-- A free attribute of the name of an open slot would have been found: either the slot was looked
for by its own name, or it is called id and no free attribute has that name. -/
theorem free_of_lookupKey {pool : SidePool} {free : NamePool} {identifier : Name}
    (absent : free.get? (pool.lookupKey free identifier) = none) :
    free.get? (Text.lowercase identifier) = none := by
  unfold lookupKey at absent
  split at absent
  · rename_i byClass
    obtain ⟨named, id⟩ := byClass
    simp only [namesClassById, Bool.and_eq_true, Bool.not_eq_eq_eq_not, Bool.not_true,
      Table.contains_eq_false_iff] at named
    rw [id]
    exact named.1.1
  · exact absent

section Completing

variable {pool : SidePool} {free : NamePool} {group : IdGroup} {members : List Name}
  (defined : pool.referred.identifiers.members? group = some members) {draft : GroupDraft}
  (covers : draft.Covers pool.bound free (pool.lookupKey free) members)

include covers

theorem mem_values_of_gone {attr : Name} (present : attr ∈ pool.bound.values)
    (gone : ∀ key, draft.remaining.get? key = none) : attr ∈ draft.assignment.values := by
  obtain ⟨key, found⟩ := Table.mem_values_iff.mp present
  rcases covers.used key attr found with left | inUse
  · rw [gone] at left
    cases left
  · exact inUse

include defined

/-- A draft that matches every member with the bound attributes used up is a candidate. -/
theorem matched_covers (matched : draft.unmatched = [])
    (gone : ∀ key, draft.remaining.get? key = none) :
    (pool.candidate group draft.assignment draft.consumed none).Covers pool free := by
  refine ⟨rfl, rfl, ⟨members, defined, fun identifier => ?_⟩,
    fun attr present => mem_values_of_gone covers present gone, covers.values,
    fun key present => .inl (covers.consumed key present), ?_⟩
  · rw [covers.members_iff, matched]
    simp [candidate]
  · simp [candidate]

/-- With the bound attributes used up, the one unmatched member becomes the open slot. -/
theorem open_covers {identifier : Name} (single : draft.unmatched = [identifier])
    (gone : ∀ key, draft.remaining.get? key = none) :
    (pool.candidate group draft.assignment (draft.consumed.insert (Text.lowercase identifier))
      (some ⟨Text.lowercase identifier, identifier⟩)).Covers pool free := by
  have lacking := covers.unmatched identifier (by simp [single])
  refine ⟨rfl, rfl, ⟨members, defined, fun other => ?_⟩,
    fun attr present => mem_values_of_gone covers present gone, covers.values,
    fun key present => ?_, ?_⟩
  · rw [covers.members_iff, single]
    simp [candidate, eq_comm]
  · rcases NameSet.mem_insert.mp present with rfl | early
    · exact .inr ⟨_, rfl, rfl⟩
    · exact .inl (covers.consumed key early)
  · rintro slot ⟨⟩
    exact ⟨NameSet.mem_insert.mpr (.inl rfl), free_of_lookupKey lacking.2, lacking.1⟩

/-- The one unmatched member takes the one bound attribute that is left. -/
theorem forced_covers {identifier key attr : Name} (single : draft.unmatched = [identifier])
    (left : draft.remaining.entries = [(key, attr)]) :
    (pool.candidate group (draft.assignment.insert identifier attr) draft.consumed none).Covers
      pool free := by
  have lacking := covers.unmatched identifier (by simp [single])
  have remains : ∀ name other, draft.remaining.get? name = some other ↔ name = key ∧ other = attr := by
    intro name other
    rw [Table.get?_eq_some_iff, left, List.mem_singleton, Prod.mk.injEq]
  refine ⟨rfl, rfl, ⟨members, defined, fun other => ?_⟩, fun other present => ?_,
    fun other present => ?_, fun name present => ?_, ?_⟩
  · rw [covers.members_iff, single]
    simp [candidate, or_comm]
  · obtain ⟨name, found⟩ := Table.mem_values_iff.mp present
    rcases covers.used name other found with unused | inUse
    · rw [((remains _ _).mp unused).2]
      exact Table.mem_values_insert_self ..
    · exact Table.mem_values_insert_of_absent lacking.1 inUse
  · rcases Table.mem_values_insert present with rfl | early
    · exact .inl (Table.mem_values_of_get? (covers.remaining _ _ ((remains _ _).mpr ⟨rfl, rfl⟩)))
    · exact covers.values other early
  · obtain ⟨other, found, inUse⟩ := covers.consumed name present
    exact .inl ⟨other, found, Table.mem_values_insert_of_absent lacking.1 inUse⟩
  · simp [candidate]

/-- A completed draft covers its group. -/
theorem complete_covers {candidate : GroupCandidate}
    (formed : (pool.complete group draft).candidate? = some candidate) :
    candidate.Covers pool free := by
  unfold complete at formed
  split at formed
  · rename_i matched
    split at formed
    · rename_i gone
      cases formed
      exact matched_covers defined covers matched (Table.isEmpty_iff.mp gone)
    · simp at formed
  · rename_i identifier single
    split at formed
    · rename_i gone
      cases formed
      refine open_covers defined covers single (Table.isEmpty_iff.mp ?_)
      rw [Table.isEmpty, gone]
      rfl
    · rename_i key attr others left
      split at formed
      · simp at formed
      · split at formed
        · rename_i last
          cases formed
          rw [List.isEmpty_iff.mp last] at left
          exact forced_covers defined covers single left
        · simp at formed
  · simp at formed

end Completing

/-- Every candidate of a side covers an identifier group of the referred class. -/
theorem outcomes_cover {pool : SidePool} {free : NamePool}
    (distinct : ∀ group members, pool.referred.identifiers.members? group = some members →
      members.Nodup)
    {candidate : GroupCandidate}
    (formed : candidate ∈ (pool.outcomes free).filterMap (·.candidate?)) :
    candidate.Covers pool free := by
  obtain ⟨outcome, listed, given⟩ := List.mem_filterMap.mp formed
  obtain ⟨⟨group, members⟩, defined, rfl⟩ := List.mem_map.mp listed
  have defined := Identifiers.mem_groups_iff.mp defined
  exact complete_covers defined (pool.draft_covers free (distinct _ _ defined)) given

end SidePool

end ClassModel
