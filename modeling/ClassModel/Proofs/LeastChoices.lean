import ClassModel.Proofs.ExactMatches

/-! # The choice that is given

A choice of one candidate per side is admissible if it consumes as many names as there are free ones, all
but at most one of the free ones, and if the attribute of that one carries no rename. The fewer are left
over the better. What is given is the best admissible choice with every open slot taken by the attribute
left over; of several best ones none is given, and that is another failure than that of none at all.
-/

namespace ClassModel

theorem NameSet.perm_of_mem_iff {set : NameSet} {names : List Name} (distinct : names.Nodup)
    (same : ∀ name, name ∈ set ↔ name ∈ names) : set.toList.Perm names :=
  (List.perm_ext_iff_of_nodup set.nodup_toList distinct).mpr same

namespace GroupCandidate

/-- The free attributes that a choice leaves over, by the names that they go by. -/
def unused (free : FreePool) (choice : List GroupCandidate) : List (Name × Name) :=
  free.names.entries.filter (·.1 ∉ consumedBy choice)

/-- The match with the open slot, if there is one, taken by an attribute. -/
def close (candidate : GroupCandidate) (attr : Name) : SideMatch :=
  match candidate.openSlot with
  | some slot =>
    { candidate.found with assignment := candidate.found.assignment.insert slot.identifier attr }
  | none => candidate.found

/-- The matches of a choice, with every open slot taken by the attribute left over. -/
def matchesOf (free : FreePool) (choice : List GroupCandidate) : List SideMatch :=
  match unused free choice with
  | (_, attr) :: _ => choice.map (·.close attr)
  | [] => choice.map (·.found)

/-- A choice that consumes as many names as are free, and of these all but at most one. -/
structure Exhausts (free : FreePool) (choice : List GroupCandidate) : Prop where
  size : (consumedBy choice).size = free.names.size
  few : (unused free choice).length ≤ 1

/-- A choice that leaves over at most one free attribute, which carries no rename. -/
structure IsAdmissible (free : FreePool) (choice : List GroupCandidate) : Prop
    extends Exhausts free choice where
  plain : ∀ entry ∈ unused free choice, entry.2 ∉ free.renamed

/-- An admissible choice that leaves as few attributes over as any other one. -/
structure IsLeast (pools : List SidePool) (free : FreePool) (choice : List GroupCandidate) : Prop where
  chosen : IsChoice pools free.names choice
  admissible : IsAdmissible free choice
  least : ∀ other, IsChoice pools free.names other → IsAdmissible free other →
    (unused free choice).length ≤ (unused free other).length

instance (free : FreePool) (choice : List GroupCandidate) : Decidable (IsAdmissible free choice) :=
  decidable_of_iff ((consumedBy choice).size = free.names.size ∧ (unused free choice).length ≤ 1 ∧
    ∀ entry ∈ unused free choice, entry.2 ∉ free.renamed)
    ⟨fun ⟨size, few, plain⟩ => ⟨⟨size, few⟩, plain⟩, fun ⟨⟨size, few⟩, plain⟩ => ⟨size, few, plain⟩⟩

section Counting

variable (free : FreePool) (choice : List GroupCandidate)

theorem toList_available_perm : (NameSet.ofList free.names.keys).toList.Perm free.names.keys :=
  NameSet.perm_of_mem_iff free.names.keys_nodup fun _ => NameSet.mem_ofList

theorem size_available : (NameSet.ofList free.names.keys).size = free.names.size := by
  rw [NameSet.size, (toList_available_perm free).length_eq]
  exact List.length_map _

/-- The names left over are those of the free attributes left over. -/
theorem toList_unused_perm :
    ((NameSet.ofList free.names.keys).difference (consumedBy choice)).toList.Perm
      ((unused free choice).map (·.1)) := by
  refine NameSet.perm_of_mem_iff ?_ fun name => ?_
  · exact free.names.keys_nodup.sublist ((List.filter_sublist ..).map _)
  · rw [NameSet.mem_difference, NameSet.mem_ofList]
    simp only [unused, Table.keys, List.mem_map, List.mem_filter, decide_eq_true_eq]
    constructor
    · rintro ⟨⟨entry, listed, rfl⟩, absent⟩
      exact ⟨entry, ⟨listed, absent⟩, rfl⟩
    · rintro ⟨entry, ⟨listed, absent⟩, rfl⟩
      exact ⟨⟨entry, listed, rfl⟩, absent⟩

theorem size_unused :
    ((NameSet.ofList free.names.keys).difference (consumedBy choice)).size = (unused free choice).length := by
  rw [NameSet.size, (toList_unused_perm free choice).length_eq, List.length_map]

variable {free choice}

/-- The name of the attribute left over leads back to it. -/
theorem leftover_eq {key attr : Name} (only : unused free choice = [(key, attr)]) :
    ((NameSet.ofList free.names.keys).difference (consumedBy choice)).toList.head?.bind free.names.get? =
      some attr := by
  have single := toList_unused_perm free choice
  rw [only, List.map_singleton] at single
  have listed : (key, attr) ∈ unused free choice := by simp [only]
  rw [List.perm_singleton.mp single, List.head?_cons, Option.bind_some, Table.get?_eq_some_iff]
  exact (List.mem_filter.mp listed).1

theorem nothing_left (none : unused free choice = []) :
    ((NameSet.ofList free.names.keys).difference (consumedBy choice)).toList = [] := by
  have perm := toList_unused_perm free choice
  rw [none] at perm
  exact perm.eq_nil

end Counting

section Closing

variable {pools : List SidePool} {free : FreePool} {choice : List GroupCandidate}
  (chosen : IsChoice pools free.names choice)

include chosen

/-- What a choice consumes beyond the free names are its open slots. -/
theorem exists_slot_of_consumed {key : Name} (consumed : key ∈ consumedBy choice)
    (absent : key ∉ free.names.keys) :
    ∃ candidate ∈ choice, ∃ slot, candidate.openSlot = some slot ∧ slot.key = key := by
  obtain ⟨candidate, listed, consumes⟩ := mem_consumedBy_iff.mp consumed
  obtain ⟨pool, _, possible⟩ := exists_left_of_forall₂ chosen listed
  rcases SidePool.free_or_slot possible consumes with isFree | slot
  · exact absurd (Table.mem_keys_iff.mpr (Table.contains_eq_true_iff.mp isFree)) absent
  · exact ⟨candidate, listed, slot⟩

variable (exhausts : Exhausts free choice)

include exhausts

/-- An attribute is left over together with one name that only open slots have. -/
theorem exists_missing {key attr : Name} (only : unused free choice = [(key, attr)]) :
    ∃ missing, ((consumedBy choice).difference (NameSet.ofList free.names.keys)).toList = [missing] ∧
      (∃ candidate ∈ choice, ∃ slot, candidate.openSlot = some slot ∧ slot.key = missing) ∧
      ∀ candidate ∈ choice, ∀ slot, candidate.openSlot = some slot → slot.key = missing := by
  have same : (consumedBy choice).size = (NameSet.ofList free.names.keys).size :=
    exhausts.size.trans (size_available free).symm
  have one : ((consumedBy choice).difference (NameSet.ofList free.names.keys)).size = 1 := by
    rw [NameSet.size_difference_comm same, size_unused, only]
    rfl
  obtain ⟨missing, single⟩ := List.length_eq_one_iff.mp one
  have lacking : ∀ name, name ∈ consumedBy choice ∧ name ∉ free.names.keys ↔ name = missing := by
    intro name
    rw [← NameSet.toList_eq_singleton_iff.mp single name, NameSet.mem_difference, NameSet.mem_ofList]
  obtain ⟨consumed, absent⟩ := (lacking missing).mpr rfl
  refine ⟨missing, single, exists_slot_of_consumed chosen consumed absent, ?_⟩
  intro candidate listed slot opened
  obtain ⟨pool, _, possible⟩ := exists_left_of_forall₂ chosen listed
  obtain ⟨inUse, unknown⟩ := SidePool.of_open possible opened
  refine (lacking slot.key).mp ⟨mem_consumedBy_iff.mpr ⟨candidate, listed, inUse⟩, fun isFree => ?_⟩
  rw [Table.mem_keys_iff, unknown] at isFree
  simp at isFree

/-- The judgement of a choice by what it leaves over. -/
theorem judge_of_exhausts :
    judge free choice = if ∀ entry ∈ unused free choice, entry.2 ∉ free.renamed then
      .fits (unused free choice).length (matchesOf free choice) else .overridesRename := by
  have fit : ¬ ((consumedBy choice).size ≠ (NameSet.ofList free.names.keys).size ∨
      1 < ((NameSet.ofList free.names.keys).difference (consumedBy choice)).size) := by
    rw [size_available, size_unused, not_or, not_not, not_lt]
    exact ⟨exhausts.size, exhausts.few⟩
  unfold judge matchesOf
  dsimp only
  rw [if_neg fit, size_unused]
  cases left : unused free choice with
  | nil =>
    have fills : ∀ missing, choice.map (·.fill missing none) = choice.map (·.found) :=
      fun missing => List.map_congr_left fun candidate _ => candidate.fill_none missing
    rw [nothing_left left]
    simp [fills]
  | cons entry rest =>
    obtain ⟨key, attr⟩ := entry
    obtain rfl : rest = [] := by
      have few := exhausts.few
      rw [left, List.length_cons] at few
      exact List.eq_nil_of_length_eq_zero (by omega)
    obtain ⟨missing, single, ⟨lacking, listed, slot, opened, named⟩, slots⟩ :=
      exists_missing chosen exhausts left
    have lacks : choice.any (·.lacks (some missing)) = true :=
      List.any_eq_true.mpr ⟨lacking, listed, by simp [GroupCandidate.lacks, opened, named]⟩
    have closes : choice.map (·.fill (some missing) (some attr)) = choice.map (·.close attr) := by
      refine List.map_congr_left fun candidate listed => ?_
      unfold fill close
      cases opened : candidate.openSlot with
      | none => rfl
      | some slot => simp [slots candidate listed slot opened]
    rw [single, leftover_eq left, List.head?_cons, lacks, closes]
    by_cases renamed : attr ∈ free.renamed <;> simp [renamed]

end Closing

/-- A choice that is not unfit leaves over at most one of the free attributes. -/
theorem exhausts_of_judge {free : FreePool} {choice : List GroupCandidate}
    (fit : judge free choice ≠ .unfit) : Exhausts free choice := by
  unfold judge at fit
  dsimp only at fit
  rw [size_available, size_unused] at fit
  split at fit
  · contradiction
  · rename_i enough
    rw [not_or, not_not, not_lt] at enough
    exact ⟨enough.1, enough.2⟩

section Judging

variable {pools : List SidePool} {free : FreePool} {choice : List GroupCandidate}
  (chosen : IsChoice pools free.names choice)

include chosen

/-- A choice fits exactly if it is admissible, with what it leaves over closing its open slots. -/
theorem judge_eq_fits_iff {forced : Nat} {found : List SideMatch} :
    judge free choice = .fits forced found ↔ IsAdmissible free choice ∧
      (unused free choice).length = forced ∧ matchesOf free choice = found := by
  constructor
  · intro fits
    have exhausts : Exhausts free choice := exhausts_of_judge (by simp [fits])
    rw [judge_of_exhausts chosen exhausts] at fits
    split at fits
    · rename_i plain
      cases fits
      exact ⟨⟨exhausts, plain⟩, rfl, rfl⟩
    · cases fits
  · rintro ⟨⟨exhausts, plain⟩, rfl, rfl⟩
    rw [judge_of_exhausts chosen exhausts, if_pos plain]

/-- A rename stands in the way of a choice exactly if it would be admissible but for the rename. -/
theorem judge_eq_overridesRename_iff :
    judge free choice = .overridesRename ↔ Exhausts free choice ∧ ¬ IsAdmissible free choice := by
  constructor
  · intro overrides
    have exhausts : Exhausts free choice := exhausts_of_judge (by simp [overrides])
    rw [judge_of_exhausts chosen exhausts] at overrides
    split at overrides
    · cases overrides
    · rename_i renamed
      exact ⟨exhausts, fun admissible => renamed admissible.plain⟩
  · rintro ⟨exhausts, not⟩
    rw [judge_of_exhausts chosen exhausts, if_neg fun plain => not ⟨exhausts, plain⟩]

end Judging

end GroupCandidate

/-- How many attributes an admissible choice forces. -/
theorem GroupCandidate.forced?_judge_iff {pools : List SidePool} {free : FreePool}
    {choice : List GroupCandidate} (chosen : IsChoice pools free.names choice) {forced : Nat} :
    (judge free choice).forced? = some forced ↔
      IsAdmissible free choice ∧ (unused free choice).length = forced := by
  simp only [Verdict.forced?_eq_some_iff, judge_eq_fits_iff chosen, exists_and_left, exists_eq', and_true]

section Comparing

open GroupCandidate

variable {pools : List SidePool} {free : FreePool} {choices : List (List GroupCandidate)}
  (chosen : ∀ choice, choice ∈ choices ↔ IsChoice pools free.names choice) {forced : Nat}
  (cheapest : (choices.filterMap (Verdict.forced? ∘ judge free)).min? = some forced)

include chosen cheapest

/-- The best of all choices are the admissible ones that force fewest attributes. -/
theorem GroupCandidate.isLeast_iff {choice : List GroupCandidate} : IsLeast pools free choice ↔
    choice ∈ choices ∧ IsAdmissible free choice ∧ (unused free choice).length = forced := by
  obtain ⟨attained, atMost⟩ := List.min?_eq_some_iff.mp cheapest
  have bound : ∀ other, IsChoice pools free.names other → IsAdmissible free other →
      forced ≤ (unused free other).length := by
    intro other listed admissible
    refine atMost _ (List.mem_filterMap.mpr ⟨other, (chosen other).mpr listed, ?_⟩)
    exact (forced?_judge_iff listed).mpr ⟨admissible, rfl⟩
  constructor
  · rintro ⟨listed, admissible, least⟩
    obtain ⟨other, present, fits⟩ := List.mem_filterMap.mp attained
    have alsoListed := (chosen other).mp present
    obtain ⟨alsoAdmissible, rfl⟩ := (forced?_judge_iff alsoListed).mp fits
    exact ⟨(chosen choice).mpr listed, admissible,
      Nat.le_antisymm (least other alsoListed alsoAdmissible) (bound choice listed admissible)⟩
  · rintro ⟨present, admissible, rfl⟩
    exact ⟨(chosen choice).mp present, admissible, bound⟩

theorem GroupCandidate.exists_isLeast : ∃ choice, IsLeast pools free choice := by
  obtain ⟨choice, present, fits⟩ := List.mem_filterMap.mp (List.min?_eq_some_iff.mp cheapest).1
  have admissible := (forced?_judge_iff ((chosen choice).mp present)).mp fits
  exact ⟨choice, (isLeast_iff chosen cheapest).mpr ⟨present, admissible⟩⟩

end Comparing

section Matching

variable {pools : List SidePool} {free : FreePool}
  (possible : ∀ pool ∈ pools, pool.candidates free.names ≠ [])

include possible

/-- Nothing is admissible, or one admissible choice is best and is given, or several are best. -/
theorem matchPools_cases :
    ((∀ choice, IsChoice pools free.names choice → ¬ GroupCandidate.IsAdmissible free choice) ∧
      ∃ overridesRename, matchPools (pools.map .ok) free =
        .error (.failure (.ofOverride overridesRename))) ∨
    (∃ choice, GroupCandidate.IsLeast pools free choice ∧
      (∀ other, GroupCandidate.IsLeast pools free other → other = choice) ∧
      matchPools (pools.map .ok) free = .ok (GroupCandidate.matchesOf free choice)) ∨
    ∃ first second, GroupCandidate.IsLeast pools free first ∧ GroupCandidate.IsLeast pools free second ∧
      first ≠ second ∧ matchPools (pools.map .ok) free = .error (.failure .multipleSources) := by
  obtain ⟨choices, distinct, chosen, given⟩ := matchPools_eq_best possible
  rw [Verdict.best_eq, List.filterMap_map] at given
  cases cheapest : (choices.filterMap (Verdict.forced? ∘ GroupCandidate.judge free)).min? with
  | none =>
    rw [cheapest] at given
    refine .inl ⟨fun choice listed admissible => ?_, _, given⟩
    rw [List.min?_eq_none_iff, List.filterMap_eq_nil_iff] at cheapest
    have none := cheapest choice ((chosen choice).mpr listed)
    rw [Function.comp_apply, (GroupCandidate.forced?_judge_iff listed).mpr ⟨admissible, rfl⟩] at none
    cases none
  | some forced =>
    rw [cheapest] at given
    dsimp only at given
    simp only [List.filterMap_map, Function.comp_def] at given
    have least : ∀ choice, GroupCandidate.IsLeast pools free choice ↔ choice ∈ choices ∧
        GroupCandidate.IsAdmissible free choice ∧ (GroupCandidate.unused free choice).length = forced :=
      fun _ => GroupCandidate.isLeast_iff chosen cheapest
    have kept : ∀ choice ∈ choices, ∀ found,
        (GroupCandidate.judge free choice).foundWith? forced = some found ↔
          GroupCandidate.IsLeast pools free choice ∧ GroupCandidate.matchesOf free choice = found := by
      intro choice present found
      rw [Verdict.foundWith?_eq_some_iff, GroupCandidate.judge_eq_fits_iff ((chosen choice).mp present),
        least, and_iff_right present, and_assoc]
    obtain ⟨choice, best⟩ := GroupCandidate.exists_isLeast chosen cheapest
    have present := ((least choice).mp best).1
    by_cases only : ∀ other, GroupCandidate.IsLeast pools free other → other = choice
    · refine .inr (.inl ⟨choice, best, only, ?_⟩)
      rw [given, filterMap_eq_singleton distinct present ((kept choice present _).mpr ⟨best, rfl⟩)]
      · rfl
      · intro other alsoPresent isKept
        obtain ⟨found, fits⟩ := Option.isSome_iff_exists.mp isKept
        exact only other ((kept other alsoPresent found).mp fits).1
    · push Not at only
      obtain ⟨other, alsoBest, different⟩ := only
      have alsoPresent := ((least other).mp alsoBest).1
      refine .inr (.inr ⟨other, choice, alsoBest, best, different, ?_⟩)
      rw [given]
      split
      · rename_i found single
        exact absurd single (filterMap_ne_singleton alsoPresent present different
          (Option.isSome_of_eq_some ((kept other alsoPresent _).mpr ⟨alsoBest, rfl⟩))
          (Option.isSome_of_eq_some ((kept choice present _).mpr ⟨best, rfl⟩)) found)
      · rfl

end Matching

namespace Partition

variable {partition : Partition} {general : Table Name Name} {names : NamePool} {pools : List SidePool}

/-- The only admissible choice that leaves fewest attributes over is given, with its open slots taken by
what it leaves over; if several leave as few, none is given for that reason; and for lack of a solution, or
because of a rename, none is given exactly if no choice is admissible. -/
theorem match?_least (named : NamePool.ofAttributes partition.free general = .ok names)
    (pooled : List.Forall₂ (fun source pool => source.pool = .ok pool) partition.sources pools)
    (possible : ∀ pool ∈ pools, pool.candidates names ≠ []) :
    (∀ found, partition.match? general = .ok found ↔
      ∃ choice, GroupCandidate.IsLeast pools ⟨names, general.keys⟩ choice ∧
        (∀ other, GroupCandidate.IsLeast pools ⟨names, general.keys⟩ other → other = choice) ∧
        GroupCandidate.matchesOf ⟨names, general.keys⟩ choice = found) ∧
    (partition.match? general = .error (.failure .multipleSources) ↔
      ∃ first second, GroupCandidate.IsLeast pools ⟨names, general.keys⟩ first ∧
        GroupCandidate.IsLeast pools ⟨names, general.keys⟩ second ∧ first ≠ second) ∧
    (partition.match? general = .error (.failure .noSolution) ∨
        partition.match? general = .error (.failure .ambiguousRename) ↔
      ∀ choice, IsChoice pools names choice →
        ¬ GroupCandidate.IsAdmissible ⟨names, general.keys⟩ choice) := by
  rw [match?_eq_matchPools named pooled]
  obtain ⟨none, overridesRename, failed⟩ | ⟨choice, best, only, given⟩ | ⟨first, second, one, two, different, tied⟩ :=
    @matchPools_cases pools ⟨names, general.keys⟩ possible
  · have notLeast : ∀ choice, ¬ GroupCandidate.IsLeast pools ⟨names, general.keys⟩ choice :=
      fun choice best => none choice best.chosen best.admissible
    simp only [failed, reduceCtorEq, notLeast, false_and, exists_false, implies_true, true_and]
    cases overridesRename <;> simpa [MatchFailure.ofOverride] using none
  · rw [given]
    refine ⟨fun found => ?_, ?_, ?_⟩
    · constructor
      · rintro ⟨⟩
        exact ⟨choice, best, only, rfl⟩
      · rintro ⟨other, alsoBest, _, rfl⟩
        rw [only other alsoBest]
    · simp only [reduceCtorEq, false_iff]
      rintro ⟨first, second, one, two, different⟩
      exact different ((only first one).trans (only second two).symm)
    · simp only [reduceCtorEq, or_self, false_iff]
      exact fun none => none choice best.chosen best.admissible
  · rw [tied]
    refine ⟨fun found => ?_, ?_, ?_⟩
    · simp only [reduceCtorEq, false_iff]
      rintro ⟨choice, _, only, _⟩
      exact different ((only first one).trans (only second two).symm)
    · exact iff_of_true rfl ⟨first, second, one, two, different⟩
    · simp only [Except.error.injEq, MatchRefusal.failure.injEq, reduceCtorEq, or_self, false_iff]
      exact fun none => none first one.chosen one.admissible

end Partition

namespace Sample

/-- A slot refers to its part by a plain code. -/
def codedSlots : Partition :=
  { sources := [{ side := .active, referred := .ofDeclaration part 1 "Depot" }]
    free := ["Code"] }

end Sample

namespace Partition

/-- The code of a slot can be forced onto the serial number of its part, and is the code of the part by name.
Only the second choice leaves nothing over, and it is given. -/
theorem match?_least_codedSlots : ∃ names pool choice,
    NamePool.ofAttributes Sample.codedSlots.free .empty = .ok names ∧
    List.Forall₂ (fun source pool => source.pool = .ok pool) Sample.codedSlots.sources [pool] ∧
    (∀ side ∈ [pool], side.candidates names ≠ []) ∧
    (pool.candidates names).map (·.found.group) = [.first, .second] ∧
    Sample.codedSlots.match? .empty =
      .ok [⟨.active, "Part", .second, .ofList [("Code", "Code")]⟩] ∧
    GroupCandidate.IsLeast [pool] ⟨names, []⟩ choice ∧
    (∀ other, GroupCandidate.IsLeast [pool] ⟨names, []⟩ other → other = choice) ∧
    GroupCandidate.matchesOf ⟨names, []⟩ choice =
      [⟨.active, "Part", .second, .ofList [("Code", "Code")]⟩] := by
  have ran : ((NamePool.ofAttributes Sample.codedSlots.free .empty).toOption.bind fun names =>
      (Sample.codedSlots.sources.head?.bind (·.pool.toOption)).map fun pool =>
        decide (List.Forall₂ (fun source pool => source.pool = .ok pool) Sample.codedSlots.sources [pool] ∧
          (∀ side ∈ [pool], side.candidates names ≠ []) ∧
          (pool.candidates names).map (·.found.group) = [.first, .second] ∧
          Sample.codedSlots.match? .empty =
            .ok [⟨.active, "Part", .second, .ofList [("Code", "Code")]⟩])) = some true := by
    decide +kernel
  simp only [Option.bind_eq_some_iff, Option.map_eq_some_iff, toOption_eq_some_iff, decide_eq_true_eq] at ran
  obtain ⟨names, named, pool, _, pooled, possible, groups, matched⟩ := ran
  obtain ⟨choice, best, only, same⟩ := ((match?_least named pooled possible).1 _).mp matched
  exact ⟨names, pool, choice, named, pooled, possible, groups, matched, best, only, same⟩

end Partition

end ClassModel
