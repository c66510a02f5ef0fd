import ClassModel.Proofs.LeastChoices

/-! # Renames as a reason

A match fails because of a rename if one was in the way of something that it tried: of a group of a side,
on the first sides up to the first one without candidates, or of a choice of one candidate per side. With
the regard for renames dropped, no assignment at all can be found where the reason is another one. But the
reason may be a rename even then: a group counts as soon as the first attribute left over is renamed, be it
that others are left over besides, or that another side or the free attributes do not work out.
-/

namespace ClassModel

namespace MatchFailure

@[simp] theorem ofOverride_eq_ambiguousRename_iff {overridesRename : Bool} :
    ofOverride overridesRename = .ambiguousRename ↔ overridesRename = true := by
  cases overridesRename <;> simp [ofOverride]

@[simp] theorem ofOverride_eq_noSolution_iff {overridesRename : Bool} :
    ofOverride overridesRename = .noSolution ↔ overridesRename = false := by
  cases overridesRename <;> simp [ofOverride]

end MatchFailure

namespace SidePool

/-- Whether the one member of a group that no attribute answers to would be given a bound attribute that
carries a rename: the first of those that are left over. -/
def OverridesIn (pool : SidePool) (free : NamePool) (group : IdGroup) : Prop :=
  ∃ members identifier key attr others, pool.referred.identifiers.members? group = some members ∧
    (pool.draft free members).unmatched = [identifier] ∧
    (pool.draft free members).remaining.entries = (key, attr) :: others ∧ attr ∈ pool.renamed

/-- The side without regard for renames; the names of its bound attributes stay. -/
def regardless (pool : SidePool) : SidePool := { pool with renamed := [] }

variable {pool : SidePool} {free : NamePool} {group : IdGroup} {draft : GroupDraft}

theorem overridesRename_complete_iff : (pool.complete group draft).overridesRename = true ↔
    ∃ identifier key attr others, draft.unmatched = [identifier] ∧
      draft.remaining.entries = (key, attr) :: others ∧ attr ∈ pool.renamed := by
  constructor
  · intro overrides
    unfold complete at overrides
    split at overrides
    · split at overrides <;> cases overrides
    · rename_i identifier single
      split at overrides
      · cases overrides
      · rename_i key attr others left
        split at overrides
        · rename_i renamed
          exact ⟨identifier, key, attr, others, single, left, renamed⟩
        · split at overrides <;> cases overrides
    · cases overrides
  · rintro ⟨identifier, key, attr, others, single, left, renamed⟩
    simp [complete, single, left, renamed]

theorem overrides_iff : pool.overrides free = true ↔ ∃ group, pool.OverridesIn free group := by
  simp only [overrides, outcomes, List.any_eq_true, List.mem_map, Prod.exists]
  constructor
  · rintro ⟨_, ⟨group, members, listed, rfl⟩, overrides⟩
    obtain ⟨identifier, key, attr, others, found⟩ := overridesRename_complete_iff.mp overrides
    exact ⟨group, members, identifier, key, attr, others, Identifiers.mem_groups_iff.mp listed, found⟩
  · rintro ⟨group, members, identifier, key, attr, others, defined, found⟩
    refine ⟨_, ⟨group, members, Identifiers.mem_groups_iff.mpr defined, rfl⟩, ?_⟩
    exact overridesRename_complete_iff.mpr ⟨identifier, key, attr, others, found⟩

theorem overrides_eq_false_iff : pool.overrides free = false ↔ ∀ group, ¬ pool.OverridesIn free group := by
  rw [Bool.eq_false_iff, ne_eq, overrides_iff, not_exists]

/-- Without regard for renames a group comes out as before, unless a rename was in its way. -/
theorem candidate?_complete_regardless (plain : (pool.complete group draft).overridesRename = false) :
    (pool.regardless.complete group draft).candidate? = (pool.complete group draft).candidate? := by
  have plain : ∀ identifier key attr others, draft.unmatched = [identifier] →
      draft.remaining.entries = (key, attr) :: others → attr ∉ pool.renamed := by
    intro identifier key attr others single left renamed
    rw [overridesRename_complete_iff.mpr ⟨identifier, key, attr, others, single, left, renamed⟩] at plain
    cases plain
  unfold complete
  cases single : draft.unmatched with
  | nil => rfl
  | cons identifier rest =>
    cases rest with
    | cons second rest => rfl
    | nil =>
      cases left : draft.remaining.entries with
      | nil => rfl
      | cons entry others =>
        obtain ⟨key, attr⟩ := entry
        dsimp only
        rw [if_neg (plain identifier key attr others single left),
          if_neg (show attr ∉ pool.regardless.renamed from List.not_mem_nil)]
        rfl

/-- Without regard for renames a side has the same candidates, unless a rename was in the way of one. -/
theorem candidates_regardless (plain : pool.overrides free = false) :
    pool.regardless.candidates free = pool.candidates free := by
  rw [overrides, outcomes, List.any_eq_false] at plain
  unfold candidates outcomes
  rw [List.filterMap_map, List.filterMap_map]
  refine List.filterMap_congr fun entry listed => ?_
  refine candidate?_complete_regardless (Bool.eq_false_iff.mpr ?_)
  exact plain _ (List.mem_map_of_mem listed)

end SidePool

/-- The free attributes without regard for renames; their names stay. -/
def FreePool.regardless (free : FreePool) : FreePool := { free with renamed := [] }

namespace GroupCandidate

/-- Without regard for renames every choice that leaves over at most one attribute is admissible. -/
theorem isAdmissible_regardless_iff {free : FreePool} {choice : List GroupCandidate} :
    IsAdmissible free.regardless choice ↔ Exhausts free choice := by
  constructor
  · rintro ⟨⟨size, few⟩, _⟩
    exact ⟨size, few⟩
  · rintro ⟨size, few⟩
    exact ⟨⟨size, few⟩, fun _ _ => List.not_mem_nil⟩

end GroupCandidate

/-- Without regard for renames the choices are the same, unless a rename was in the way of a candidate. -/
theorem isChoice_regardless_iff {pools : List SidePool} {free : NamePool} {choice : List GroupCandidate}
    (plain : ∀ pool ∈ pools, pool.overrides free = false) :
    IsChoice (pools.map (·.regardless)) free choice ↔ IsChoice pools free choice := by
  rw [IsChoice, List.forall₂_map_left_iff]
  constructor <;> refine fun sides => forall₂_imp_of_mem sides fun pool listed candidate _ formed => ?_
  · rwa [SidePool.candidates_regardless (plain pool listed)] at formed
  · rwa [SidePool.candidates_regardless (plain pool listed)]

/-- Whether some assignment is complete. -/
def HasAssignment (pools : List SidePool) (free : FreePool) : Prop :=
  ∃ choice, IsChoice pools free.names choice ∧ GroupCandidate.IsAdmissible free choice

/-- How a rename can be in the way of a match: of a group of one of the sides that are looked at, which
ends with the first one without candidates, or of a choice of candidates of all sides. -/
inductive RenameStands (pools : List SidePool) (free : FreePool) : Prop where
  | group {before after : List SidePool} {pool : SidePool} {group : IdGroup}
      (place : pools = before ++ pool :: after)
      (possible : ∀ other ∈ before, other.candidates free.names ≠ [])
      (overrides : pool.OverridesIn free.names group)
  | choice {choice : List GroupCandidate} (possible : ∀ pool ∈ pools, pool.candidates free.names ≠ [])
      (chosen : IsChoice pools free.names choice) (exhausts : GroupCandidate.Exhausts free choice)
      (renamed : ∃ entry ∈ GroupCandidate.unused free choice, entry.2 ∈ free.renamed)

namespace RenameStands

variable {pools : List SidePool} {free : FreePool} (possible : ∀ pool ∈ pools, pool.candidates free.names ≠ [])

include possible

/-- Where every side has candidates, all sides are looked at. -/
theorem of_group {pool : SidePool} (listed : pool ∈ pools) {group : IdGroup}
    (overrides : pool.OverridesIn free.names group) : RenameStands pools free := by
  obtain ⟨before, after, rfl⟩ := List.append_of_mem listed
  exact .group rfl (fun other early => possible other (List.mem_append_left _ early)) overrides

/-- A choice that leaves over few enough can only be given up for a rename. -/
theorem of_exhausts {choice : List GroupCandidate} (chosen : IsChoice pools free.names choice)
    (exhausts : GroupCandidate.Exhausts free choice) (not : ¬ GroupCandidate.IsAdmissible free choice) :
    RenameStands pools free := by
  refine .choice possible chosen exhausts ?_
  by_contra plain
  push Not at plain
  exact not ⟨exhausts, plain⟩

end RenameStands

/-- The sides up to the first one without candidates are looked at. -/
theorem SideCandidates.collect_of_stuck {free : NamePool} {before after : List SidePool} {pool : SidePool}
    (possible : ∀ other ∈ before, other.candidates free ≠ []) (stuck : pool.candidates free = [])
    (overridesRename : Bool) :
    collect free overridesRename ((before ++ pool :: after).map .ok) =
      .error (.failure (.ofOverride
        (overridesRename || (before ++ [pool]).any (·.overrides free)))) := by
  induction before generalizing overridesRename with
  | nil =>
    rw [List.nil_append, List.map_cons, collect, if_pos (by simpa using stuck)]
    simp [SidePool.overrides]
  | cons first rest ih =>
    rw [List.forall_mem_cons] at possible
    rw [List.cons_append, List.map_cons, collect, if_neg (by simpa using possible.1), ih possible.2]
    simp [Except.map, SidePool.overrides, Bool.or_assoc]

/-- Either every side has candidates or there is a first one that has none. -/
theorem exists_stuck_or_possible (pools : List SidePool) (free : NamePool) :
    (∀ pool ∈ pools, pool.candidates free ≠ []) ∨
      ∃ before pool after, pools = before ++ pool :: after ∧
        (∀ other ∈ before, other.candidates free ≠ []) ∧ pool.candidates free = [] := by
  induction pools with
  | nil => exact .inl fun _ listed => absurd listed List.not_mem_nil
  | cons first rest ih =>
    by_cases stuck : first.candidates free = []
    · exact .inr ⟨[], first, rest, rfl, fun _ listed => absurd listed List.not_mem_nil, stuck⟩
    · rcases ih with possible | ⟨before, pool, after, rfl, possible, none⟩
      · exact .inl (List.forall_mem_cons.mpr ⟨stuck, possible⟩)
      · exact .inr ⟨first :: before, pool, after, rfl, List.forall_mem_cons.mpr ⟨stuck, possible⟩, none⟩

section Reasons

variable {pools : List SidePool} {free : FreePool}

/-- Where a side has no candidates, the reason is a rename if one was in the way up to there. -/
theorem renameStands_iff_of_stuck {before after : List SidePool} {pool : SidePool}
    (place : pools = before ++ pool :: after) (possible : ∀ other ∈ before, other.candidates free.names ≠ [])
    (stuck : pool.candidates free.names = []) :
    RenameStands pools free ↔ (before ++ [pool]).any (·.overrides free.names) = true := by
  rw [List.any_eq_true]
  constructor
  · rintro (⟨place', possible', overrides⟩ | ⟨all, _, _, _⟩)
    · refine ⟨_, ?_, SidePool.overrides_iff.mpr ⟨_, overrides⟩⟩
      -- a side after the one that is stuck would have it among those before
      rw [place] at place'
      rcases List.append_eq_append_iff.mp place' with ⟨between, rfl, rest⟩ | ⟨between, rfl, rest⟩
      · cases between with
        | nil =>
          rw [List.nil_append] at rest
          cases rest
          simp
        | cons head tail =>
          cases rest
          exact absurd stuck (possible' _ (by simp))
      · cases between with
        | nil =>
          rw [List.nil_append] at rest
          cases rest
          simp
        | cons head tail =>
          cases rest
          simp
    · exact absurd stuck (all pool (by simp [place]))
  · rintro ⟨other, listed, overrides⟩
    obtain ⟨group, overrides⟩ := SidePool.overrides_iff.mp overrides
    rcases List.mem_append.mp listed with early | here
    · obtain ⟨sooner, later, rfl⟩ := List.append_of_mem early
      refine .group (place.trans (List.append_assoc ..)) (fun first sooner => ?_) overrides
      exact possible first (List.mem_append_left _ sooner)
    · rw [List.mem_singleton.mp here] at overrides
      exact .group place possible overrides

/-- Where every side has candidates, the reason is a rename if one was in the way of a group or a choice. -/
theorem renameStands_iff_of_possible (possible : ∀ pool ∈ pools, pool.candidates free.names ≠ [])
    {choices : List (List GroupCandidate)}
    (chosen : ∀ choice, choice ∈ choices ↔ IsChoice pools free.names choice) :
    RenameStands pools free ↔ (pools.any (·.overrides free.names) ||
      (choices.map (GroupCandidate.judge free)).contains .overridesRename) = true := by
  rw [Bool.or_eq_true, List.any_eq_true, List.contains_iff_mem, List.mem_map]
  constructor
  · rintro (⟨rfl, _, overrides⟩ | ⟨_, listed, exhausts, entry, left, renamed⟩)
    · exact .inl ⟨_, by simp, SidePool.overrides_iff.mpr ⟨_, overrides⟩⟩
    · refine .inr ⟨_, (chosen _).mpr listed, ?_⟩
      exact (GroupCandidate.judge_eq_overridesRename_iff listed).mpr
        ⟨exhausts, fun admissible => admissible.plain entry left renamed⟩
  · rintro (⟨pool, listed, overrides⟩ | ⟨choice, listed, overrides⟩)
    · obtain ⟨group, overrides⟩ := SidePool.overrides_iff.mp overrides
      exact .of_group possible listed overrides
    · have isChoice := (chosen choice).mp listed
      obtain ⟨exhausts, not⟩ := (GroupCandidate.judge_eq_overridesRename_iff isChoice).mp overrides
      exact .of_exhausts possible isChoice exhausts not

section Failing

variable {reason : MatchFailure} (failed : matchPools (pools.map .ok) free = .error (.failure reason))
  (single : reason ≠ .multipleSources)

include failed single

/-- The reason is a rename exactly if one was in the way. -/
theorem ambiguousRename_iff : reason = .ambiguousRename ↔ RenameStands pools free := by
  rcases exists_stuck_or_possible pools free.names with possible | ⟨before, pool, after, rfl, possible, stuck⟩
  · obtain ⟨choices, _, chosen, given⟩ := matchPools_eq_best possible
    rw [failed] at given
    obtain ⟨_, best, same⟩ := mapError_eq_error_iff.mp given.symm
    cases same
    rw [renameStands_iff_of_possible possible chosen, (Verdict.reason_of_best best single).2,
      MatchFailure.ofOverride_eq_ambiguousRename_iff]
  · rw [matchPools, SideCandidates.collect_of_stuck possible stuck] at failed
    cases failed
    rw [renameStands_iff_of_stuck rfl possible stuck, MatchFailure.ofOverride_eq_ambiguousRename_iff,
      Bool.false_or]

/-- A choice that is complete without regard for renames has been tried, unless a rename was in the way of a
group before; and it was given up for a rename. -/
theorem renameStands_of_hasAssignment
    (relaxed : HasAssignment (pools.map (·.regardless)) free.regardless) : RenameStands pools free := by
  obtain ⟨choice, chosen, exhausts⟩ := relaxed
  rw [GroupCandidate.isAdmissible_regardless_iff] at exhausts
  by_contra clear
  rcases exists_stuck_or_possible pools free.names with possible | ⟨before, pool, after, rfl, possible, stuck⟩
  · have plain : ∀ pool ∈ pools, pool.overrides free.names = false := fun pool listed =>
      SidePool.overrides_eq_false_iff.mpr fun _ overrides => clear (.of_group possible listed overrides)
    have isChoice : IsChoice pools free.names choice := (isChoice_regardless_iff plain).mp chosen
    obtain ⟨none, _⟩ | ⟨_, _, _, given⟩ | ⟨_, _, _, _, _, tied⟩ := matchPools_cases possible
    · exact clear (.of_exhausts possible isChoice exhausts (none choice isChoice))
    · rw [failed] at given
      cases given
    · rw [failed] at tied
      cases tied
      contradiction
  · have plain : pool.overrides free.names = false := by
      rw [renameStands_iff_of_stuck rfl possible stuck, List.any_append, Bool.or_eq_true, not_or] at clear
      simpa using clear.2
    have sides := List.forall₂_map_left_iff.mp chosen
    obtain ⟨candidate, _, formed⟩ := exists_left_of_forall₂ sides.flip (show pool ∈ _ by simp)
    rw [FreePool.regardless, SidePool.candidates_regardless plain, stuck] at formed
    cases formed

end Failing

/-- Where no group is given up for a rename, a rename is in the way exactly if some assignment is complete
without regard for renames. -/
theorem RenameStands.hasAssignment (stands : RenameStands pools free)
    (plain : ∀ pool ∈ pools, ∀ group, ¬ pool.OverridesIn free.names group) :
    HasAssignment (pools.map (·.regardless)) free.regardless := by
  cases stands with
  | group place _ overrides => exact absurd overrides (plain _ (by simp [place]) _)
  | choice _ chosen exhausts _ =>
    have clear : ∀ pool ∈ pools, pool.overrides free.names = false :=
      fun pool listed => SidePool.overrides_eq_false_iff.mpr (plain pool listed)
    exact ⟨_, (isChoice_regardless_iff clear).mpr chosen,
      GroupCandidate.isAdmissible_regardless_iff.mpr exhausts⟩

end Reasons

namespace Partition

variable {partition : Partition} {general : Table Name Name} {names : NamePool} {pools : List SidePool}

/-- A match that fails for another reason than several solutions fails because of a rename exactly if one was
in the way of what it tried. That is so if some assignment is complete without regard for renames; and only
then, if no rename was in the way of a group. -/
theorem match?_reason (named : NamePool.ofAttributes partition.free general = .ok names)
    (pooled : List.Forall₂ (fun source pool => source.pool = .ok pool) partition.sources pools)
    {reason : MatchFailure} (failed : partition.match? general = .error (.failure reason))
    (single : reason ≠ .multipleSources) :
    (reason = .ambiguousRename ↔ RenameStands pools ⟨names, general.keys⟩) ∧
    (reason = .noSolution ↔ ¬ RenameStands pools ⟨names, general.keys⟩) ∧
    (HasAssignment (pools.map (·.regardless)) (FreePool.mk names general.keys).regardless →
      reason = .ambiguousRename) ∧
    ((∀ pool ∈ pools, ∀ group, ¬ pool.OverridesIn names group) →
      (reason = .ambiguousRename ↔
        HasAssignment (pools.map (·.regardless)) (FreePool.mk names general.keys).regardless)) := by
  rw [match?_eq_matchPools named pooled] at failed
  have stands := ambiguousRename_iff failed single
  have relaxed := renameStands_of_hasAssignment failed single
  refine ⟨stands, ?_, fun given => stands.mpr (relaxed given), fun plain => ?_⟩
  · rw [← stands]
    cases reason with
    | noSolution => simp
    | ambiguousRename => simp
    | multipleSources => contradiction
  · exact stands.trans ⟨fun way => way.hasAssignment plain, relaxed⟩

end Partition

namespace Sample

/-- A slot refers to its part by a shelf, which goes by another name there, and a bay. -/
def shelvedSlots : Partition :=
  { sources := [
      { side := .active
        referred := .ofDeclaration part 1 "Depot"
        bound := ["Shelf", "Bay"]
        renames := .ofList [("Shelf", "Row")] }]
    free := [] }

end Sample

namespace Partition

/-- A renamed code can be forced onto the serial number or the code of a part only if its rename is not
regarded, and that is the reason why nothing is given. -/
theorem match?_reason_codedSlots : ∃ names pool,
    NamePool.ofAttributes Sample.codedSlots.free (.ofList [("Code", "Row")]) = .ok names ∧
    List.Forall₂ (fun source pool => source.pool = .ok pool) Sample.codedSlots.sources [pool] ∧
    Sample.codedSlots.match? (.ofList [("Code", "Row")]) = .error (.failure .ambiguousRename) ∧
    MatchFailure.ambiguousRename ≠ .multipleSources ∧
    (∀ side ∈ [pool], ∀ group, ¬ side.OverridesIn names group) ∧
    RenameStands [pool] ⟨names, ["Code"]⟩ ∧
    HasAssignment ([pool].map (·.regardless)) (FreePool.mk names ["Code"]).regardless := by
  have ran : ((NamePool.ofAttributes Sample.codedSlots.free (.ofList [("Code", "Row")])).toOption.bind
      fun names => (Sample.codedSlots.sources.head?.bind (·.pool.toOption)).map fun pool =>
        decide (List.Forall₂ (fun source pool => source.pool = .ok pool) Sample.codedSlots.sources [pool] ∧
          Sample.codedSlots.match? (.ofList [("Code", "Row")]) = .error (.failure .ambiguousRename) ∧
          pool.overrides names = false)) = some true := by
    decide +kernel
  simp only [Option.bind_eq_some_iff, Option.map_eq_some_iff, toOption_eq_some_iff, decide_eq_true_eq] at ran
  obtain ⟨names, named, pool, _, pooled, failed, plain⟩ := ran
  have clear : ∀ side ∈ [pool], ∀ group, ¬ side.OverridesIn names group := by
    intro side only group overrides
    rw [List.mem_singleton.mp only] at overrides
    rw [SidePool.overrides_iff.mpr ⟨group, overrides⟩] at plain
    cases plain
  obtain ⟨stands, _, _, relaxed⟩ := match?_reason named pooled failed (by decide)
  exact ⟨names, pool, named, pooled, failed, by decide, clear, stands.mp rfl, (relaxed clear).mp rfl⟩

/-- A shelf and a bay are one attribute too many for the serial number or the code of a part, with or without
regard for renames; but as the shelf comes first and is renamed, the reason is a rename. -/
theorem rename_blamed_shelvedSlots : ∃ names pool,
    NamePool.ofAttributes Sample.shelvedSlots.free .empty = .ok names ∧
    List.Forall₂ (fun source pool => source.pool = .ok pool) Sample.shelvedSlots.sources [pool] ∧
    Sample.shelvedSlots.match? .empty = .error (.failure .ambiguousRename) ∧
    ¬ HasAssignment ([pool].map (·.regardless)) (FreePool.mk names []).regardless := by
  have ran : ((NamePool.ofAttributes Sample.shelvedSlots.free .empty).toOption.bind
      fun names => (Sample.shelvedSlots.sources.head?.bind (·.pool.toOption)).map fun pool =>
        decide (List.Forall₂ (fun source pool => source.pool = .ok pool) Sample.shelvedSlots.sources [pool] ∧
          Sample.shelvedSlots.match? .empty = .error (.failure .ambiguousRename) ∧
          pool.regardless.candidates names = [])) = some true := by
    decide +kernel
  simp only [Option.bind_eq_some_iff, Option.map_eq_some_iff, toOption_eq_some_iff, decide_eq_true_eq] at ran
  obtain ⟨names, named, pool, _, pooled, failed, none⟩ := ran
  refine ⟨names, pool, named, pooled, failed, ?_⟩
  rintro ⟨choice, chosen, _⟩
  obtain ⟨candidate, _, formed, _⟩ := List.forall₂_cons_left_iff.mp chosen
  exact List.not_mem_nil (none ▸ formed)

end Partition

end ClassModel
