import ClassModel.Proofs.Pairings
import Mathlib.Data.List.Count

/-! # The names that a group is looked for under

Each member of an identifier group is looked for under one name. A bound attribute answers to its name
once and a free one as often as need be, and which member gets which of them does not matter: a group
is matched by name if every bound name is sought and, beyond the bound names, only free names are. It
can also do with one bound name that nothing is sought under, if there is just one member without an
attribute to take it.
-/

namespace ClassModel

/-- One more name sought is one more beyond those taken, unless it takes its name for the first time. -/
theorem diff_concat_perm {taken : List Name} (distinct : taken.Nodup) (sought : List Name) (name : Name) :
    ((sought ++ [name]).diff taken).Perm
      (if name ∈ taken ∧ name ∉ sought then sought.diff taken else sought.diff taken ++ [name]) := by
  have once := List.nodup_iff_count_le_one.mp distinct name
  rw [List.perm_iff_count]
  intro other
  by_cases same : other = name
  · subst same
    split
    · rename_i fresh
      have absent : sought.count other = 0 := List.count_eq_zero.mpr fresh.2
      have present : 0 < taken.count other := List.count_pos_iff.mpr fresh.1
      rw [List.count_diff, List.count_diff, List.count_append, List.count_singleton_self]
      omega
    · rename_i stale
      have enough : taken.count other ≤ sought.count other := by
        by_cases present : other ∈ taken
        · have earlier : 0 < sought.count other :=
            List.count_pos_iff.mpr (by_contra fun absent => stale ⟨present, absent⟩)
          omega
        · rw [List.count_eq_zero.mpr present]
          exact Nat.zero_le _
      rw [List.count_append, List.count_diff, List.count_diff, List.count_append,
        List.count_singleton_self]
      omega
  · have unmoved : [name].count other = 0 := List.count_eq_zero.mpr (by simpa using same)
    split <;> simp only [List.count_diff, List.count_append, unmoved, Nat.add_zero]

namespace SidePool

variable (pool : SidePool) (free : NamePool) (members : List Name)

/-- The names under which the members of a group are looked for. -/
def sought : List Name := members.map (pool.lookupKey free)

/-- The bound names that nothing is sought under. -/
def unsought : List Name := pool.bound.keys.filter (· ∉ pool.sought free members)

/-- The names sought beyond the bound ones, each of which is taken once. -/
def soughtFree : List Name := (pool.sought free members).diff pool.bound.keys

/-- The names sought that no attribute answers to. -/
def unanswered : List Name := (pool.soughtFree free members).filter (!free.contains ·)

end SidePool

namespace GroupDraft

/-- What a draft comes to after some members, by the names they are looked for under. -/
structure Answers (bound free : NamePool) (keyOf : Name → Name) (members : List Name)
    (draft : GroupDraft) : Prop where
  remaining : ∀ key, draft.remaining.get? key = if key ∈ members.map keyOf then none else bound.get? key
  unmatched : (draft.unmatched.map keyOf).Perm
    (((members.map keyOf).diff bound.keys).filter (!free.contains ·))
  consumed : ∀ key, key ∈ draft.consumed ↔
    key ∈ (members.map keyOf).diff bound.keys ∧ free.contains key = true
  members : ∀ identifier,
    identifier ∈ members ↔ identifier ∈ draft.assignment.keys ∨ identifier ∈ draft.unmatched

variable {bound free : NamePool} {keyOf : Name → Name}

theorem answers_start : Answers bound free keyOf [] { remaining := bound } where
  remaining := by simp
  unmatched := by simp
  consumed := by simp
  members := by simp

section Taking

variable {members : List Name} {draft : GroupDraft} (answers : Answers bound free keyOf members draft)
  (identifier : Name)

include answers

/-- A name that remains is bound and sought for the first time. -/
theorem Answers.fresh_iff :
    (draft.remaining.get? (keyOf identifier)).isSome = true ↔
      keyOf identifier ∈ bound.keys ∧ keyOf identifier ∉ members.map keyOf := by
  rw [answers.remaining, Table.mem_keys_iff]
  split
  · rename_i known
    simp [known]
  · rename_i new
    rw [Option.isSome_iff_exists, and_iff_left new]

/-- A member that takes a bound name answers the name, which is not sought beyond the bound ones. -/
theorem Answers.takeBound {attr : Name} (taken : draft.remaining.get? (keyOf identifier) = some attr) :
    Answers bound free keyOf (members ++ [identifier])
      { draft with
        remaining := draft.remaining.erase (keyOf identifier)
        assignment := draft.assignment.insert identifier attr } := by
  have step := diff_concat_perm bound.keys_nodup (members.map keyOf) (keyOf identifier)
  rw [if_pos ((answers.fresh_iff identifier).mp (Option.isSome_of_eq_some taken))] at step
  constructor
  · intro key
    rw [List.map_append, List.map_singleton, Table.get?_erase, answers.remaining]
    by_cases same : keyOf identifier = key
    · simp [same]
    · simp [same, Ne.symm same]
  · rw [List.map_append, List.map_singleton]
    exact answers.unmatched.trans (step.filter _).symm
  · intro key
    rw [List.map_append, List.map_singleton, step.mem_iff]
    exact answers.consumed key
  · intro other
    rw [List.mem_append, List.mem_singleton, answers.members, Table.mem_keys_insert]
    tauto

section Gone

variable {identifier} (gone : draft.remaining.get? (keyOf identifier) = none)

include gone

/-- A name that does not remain is sought beyond the bound ones. -/
theorem Answers.diff_perm :
    ((members.map keyOf ++ [keyOf identifier]).diff bound.keys).Perm
      ((members.map keyOf).diff bound.keys ++ [keyOf identifier]) := by
  have step := diff_concat_perm bound.keys_nodup (members.map keyOf) (keyOf identifier)
  rwa [if_neg fun first => by simpa [gone] using (answers.fresh_iff identifier).mpr first] at step

theorem Answers.remaining_concat (key : Name) : draft.remaining.get? key =
    if key ∈ members.map keyOf ++ [keyOf identifier] then none else bound.get? key := by
  by_cases same : key = keyOf identifier
  · rw [same, gone, if_pos (by simp)]
  · simp [answers.remaining, same]

/-- A member that takes a free name answers the name. -/
theorem Answers.takeFree {attr : Name} (known : free.get? (keyOf identifier) = some attr) :
    Answers bound free keyOf (members ++ [identifier])
      { draft with
        consumed := draft.consumed.insert (keyOf identifier)
        assignment := draft.assignment.insert identifier attr } := by
  have step := answers.diff_perm gone
  have isFree : free.contains (keyOf identifier) = true := Table.contains_eq_true_iff.mpr ⟨attr, known⟩
  constructor
  · rw [List.map_append, List.map_singleton]
    exact answers.remaining_concat gone
  · rw [List.map_append, List.map_singleton]
    refine answers.unmatched.trans ((step.filter _).trans ?_).symm
    simp [isFree]
  · intro key
    rw [List.map_append, List.map_singleton, step.mem_iff, NameSet.mem_insert, answers.consumed,
      List.mem_append, List.mem_singleton]
    constructor
    · rintro (rfl | ⟨early, present⟩)
      · exact ⟨.inr rfl, isFree⟩
      · exact ⟨.inl early, present⟩
    · rintro ⟨early | rfl, present⟩
      · exact .inr ⟨early, present⟩
      · exact .inl rfl
  · intro other
    rw [List.mem_append, List.mem_singleton, answers.members, Table.mem_keys_insert]
    tauto

/-- A member whose name no attribute goes by leaves the name unanswered. -/
theorem Answers.leave (unknown : free.get? (keyOf identifier) = none) :
    Answers bound free keyOf (members ++ [identifier])
      { draft with unmatched := draft.unmatched ++ [identifier] } := by
  have step := answers.diff_perm gone
  have absent : free.contains (keyOf identifier) = false := Table.contains_eq_false_iff.mpr unknown
  constructor
  · rw [List.map_append, List.map_singleton]
    exact answers.remaining_concat gone
  · rw [List.map_append, List.map_singleton, List.map_append, List.map_singleton]
    refine ((answers.unmatched.append_right _).trans ?_).trans (step.filter _).symm
    simp [absent]
  · intro key
    rw [List.map_append, List.map_singleton, step.mem_iff, answers.consumed, List.mem_append,
      List.mem_singleton]
    constructor
    · rintro ⟨early, present⟩
      exact ⟨.inl early, present⟩
    · rintro ⟨early | rfl, present⟩
      · exact ⟨early, present⟩
      · rw [absent] at present
        cases present
  · intro other
    rw [List.mem_append, List.mem_singleton, answers.members, List.mem_append, List.mem_singleton, or_assoc]

end Gone

/-- Matching one more member answers its name or leaves it unanswered. -/
theorem Answers.take : Answers bound free keyOf (members ++ [identifier])
    (draft.take free keyOf identifier) := by
  unfold GroupDraft.take
  split
  · rename_i attr taken
    exact answers.takeBound identifier taken
  · rename_i gone
    split
    · rename_i attr known
      exact answers.takeFree gone known
    · rename_i unknown
      exact answers.leave gone unknown

end Taking

/-- Matching all members of a group answers the names that they are looked for under. -/
theorem Answers.foldl_take {done members : List Name} {draft : GroupDraft}
    (answers : Answers bound free keyOf done draft) :
    Answers bound free keyOf (done ++ members) (members.foldl (GroupDraft.take free keyOf) draft) := by
  induction members generalizing done draft with
  | nil => simpa using answers
  | cons identifier rest ih =>
    rw [List.append_cons]
    exact ih (answers.take identifier)

end GroupDraft

namespace SidePool

section Drafting

variable (pool : SidePool) (free : NamePool) (members : List Name)

theorem draft_answers :
    (pool.draft free members).Answers pool.bound free (pool.lookupKey free) members :=
  GroupDraft.answers_start.foldl_take

/-- The bound names that remain are those that nothing is sought under. -/
theorem keys_remaining_perm :
    ((pool.draft free members).remaining.keys).Perm (pool.unsought free members) := by
  refine (List.perm_ext_iff_of_nodup (Table.keys_nodup _) (pool.bound.keys_nodup.filter _)).mpr fun key => ?_
  rw [Table.mem_keys_iff, List.mem_filter, Table.mem_keys_iff]
  simp only [(pool.draft_answers free members).remaining, sought]
  split
  · rename_i known
    simp [known]
  · rename_i new
    simp [new]

theorem unmatched_perm :
    ((pool.draft free members).unmatched.map (pool.lookupKey free)).Perm (pool.unanswered free members) :=
  (pool.draft_answers free members).unmatched

theorem mem_consumed_iff {key : Name} : key ∈ (pool.draft free members).consumed ↔
    key ∈ pool.soughtFree free members ∧ free.contains key = true :=
  (pool.draft_answers free members).consumed key

end Drafting

end SidePool

end ClassModel
