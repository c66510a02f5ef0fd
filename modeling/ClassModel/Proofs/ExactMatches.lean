import ClassModel.Proofs.NamedGroups

/-! # Exact matches

A choice of one identifier group per side is exact if every member is matched by name and every bound
and every free attribute is in use. Force costs a free attribute, so that an exact choice goes before
every choice that forces one; but it does not cost a bound attribute. So an exact choice is given only
if there is no other one that uses all free names and forces bound attributes, and otherwise neither is.
-/

namespace ClassModel

/-- Of items without repeats one is all that a partial function keeps if it is the only one to be kept. -/
theorem filterMap_eq_singleton {α β : Type} {items : List α} (distinct : items.Nodup) {keep : α → Option β}
    {item : α} (present : item ∈ items) {kept : β} (given : keep item = some kept)
    (only : ∀ other ∈ items, (keep other).isSome = true → other = item) : items.filterMap keep = [kept] := by
  obtain ⟨before, after, rfl⟩ := List.append_of_mem present
  have others : ∀ other ∈ before ++ after, keep other = none := by
    intro other listed
    by_contra isKept
    have same : other = item := only other (by
      rcases List.mem_append.mp listed with early | late
      · exact List.mem_append_left _ early
      · exact List.mem_append_right _ (List.mem_cons_of_mem _ late)) (Option.isSome_iff_ne_none.mpr isKept)
    subst same
    exact (List.nodup_middle.mp distinct).notMem listed
  rw [List.filterMap_append, List.filterMap_cons_some given,
    List.filterMap_eq_nil_iff.mpr fun other early => others other (List.mem_append_left _ early),
    List.filterMap_eq_nil_iff.mpr fun other late => others other (List.mem_append_right _ late)]
  rfl

/-- If a partial function keeps two different items, it does not keep one thing only. -/
theorem filterMap_ne_singleton {α β : Type} {items : List α} {keep : α → Option β} {first second : α}
    (firstPresent : first ∈ items) (secondPresent : second ∈ items) (different : first ≠ second)
    (firstKept : (keep first).isSome = true) (secondKept : (keep second).isSome = true) (kept : β) :
    items.filterMap keep ≠ [kept] := by
  obtain ⟨two, perm, within⟩ : [first, second].Subperm items := by
    refine List.Nodup.subperm (by simp [different]) ?_
    simp [firstPresent, secondPresent]
  intro single
  have many := (within.filterMap keep).length_le
  rw [(perm.filterMap keep).length_eq] at many
  obtain ⟨one, firstGiven⟩ := Option.isSome_iff_exists.mp firstKept
  obtain ⟨other, secondGiven⟩ := Option.isSome_iff_exists.mp secondKept
  rw [single, List.filterMap_cons_some firstGiven, List.filterMap_cons_some secondGiven] at many
  simp at many

namespace GroupCandidate

theorem fill_none (candidate : GroupCandidate) (missing : Option Name) :
    candidate.fill missing none = candidate.found := by
  unfold fill
  split
  · contradiction
  · rfl

/-- A choice fits without force if it consumes just the free names. -/
theorem judge_eq_fits_zero_iff {free : FreePool} {choice : List GroupCandidate} {found : List SideMatch} :
    judge free choice = .fits 0 found ↔
      (∀ key, key ∈ consumedBy choice ↔ key ∈ free.names.keys) ∧ choice.map (·.found) = found := by
  have fills : ∀ missing, choice.map (·.fill missing none) = choice.map (·.found) :=
    fun missing => List.map_congr_left fun candidate _ => candidate.fill_none missing
  have nothing : ∀ {left right : NameSet}, (∀ key, key ∈ left → key ∈ right) →
      (left.difference right).toList = [] := by
    intro left right within
    refine List.eq_nil_iff_forall_not_mem.mpr fun key present => ?_
    obtain ⟨inside, outside⟩ := NameSet.mem_difference.mp (NameSet.mem_iff.mpr present)
    exact outside (within key inside)
  constructor
  · intro fits
    unfold judge at fits
    dsimp only at fits
    split at fits
    · cases fits
    · rename_i fit
      push Not at fit
      split at fits
      · cases fits
      · simp only [Verdict.fits.injEq] at fits
        obtain ⟨none, rfl⟩ := fits
        have unused := List.eq_nil_of_length_eq_zero none
        have available : ∀ key, key ∈ free.names.keys → key ∈ consumedBy choice := by
          intro key present
          by_contra left
          have rest : key ∈ (NameSet.ofList free.names.keys).difference (consumedBy choice) :=
            NameSet.mem_difference.mpr ⟨NameSet.mem_ofList.mpr present, left⟩
          rw [NameSet.mem_iff, unused] at rest
          cases rest
        refine ⟨fun key => ⟨fun consumed => ?_, available key⟩, ?_⟩
        · by_contra absent
          have lacking : key ∈ (consumedBy choice).difference (NameSet.ofList free.names.keys) :=
            NameSet.mem_difference.mpr ⟨consumed, fun present => absent (NameSet.mem_ofList.mp present)⟩
          obtain ⟨other, rest⟩ := NameSet.exists_mem_difference fit.1 lacking
          rw [NameSet.mem_iff, unused] at rest
          cases rest
        · rw [unused, List.head?_nil, Option.bind_none, fills]
  · rintro ⟨same, rfl⟩
    have equal : consumedBy choice = NameSet.ofList free.names.keys :=
      NameSet.ext fun key => (same key).trans NameSet.mem_ofList.symm
    unfold judge
    rw [equal]
    simp [NameSet.size, nothing fun _ => id, fills]

end GroupCandidate

/-- Something holds on one side of a row of pairs if it does on the other. -/
theorem exists_mem_zip_map_iff {α β γ : Type} {R : α → β → Prop} {items : List α} {others : List β}
    (pairs : List.Forall₂ R items others) (view : β → γ) {p : β → Prop} {q : α × γ → Prop}
    (alike : ∀ item other, R item other → (p other ↔ q (item, view other))) :
    (∃ other ∈ others, p other) ↔ ∃ entry ∈ items.zip (others.map view), q entry := by
  induction pairs with
  | nil => simp
  | cons pair _ ih =>
    simp only [List.map_cons, List.zip_cons_cons, List.exists_mem_cons_iff, alike _ _ pair, ih]

theorem nodup_choices {α : Type} {lists : List (List α)} (distinct : ∀ items ∈ lists, items.Nodup) :
    (choices lists).Nodup := by
  induction lists with
  | nil => exact List.nodup_singleton _
  | cons items rest ih =>
    rw [List.forall_mem_cons] at distinct
    refine List.nodup_flatMap.mpr ⟨fun item _ => (ih distinct.2).map List.cons_injective, ?_⟩
    refine List.Pairwise.imp (fun {first second} different => ?_) distinct.1
    intro choice left right
    obtain ⟨_, _, rfl⟩ := List.mem_map.mp left
    obtain ⟨_, _, same⟩ := List.mem_map.mp right
    exact different (List.cons.inj same).1.symm

/-- A choice of one candidate for each side. -/
abbrev IsChoice (pools : List SidePool) (free : NamePool) (choice : List GroupCandidate) : Prop :=
  List.Forall₂ (fun pool candidate => candidate ∈ SidePool.candidates pool free) pools choice

namespace SidePool

/-- Whether a group of a side would force a bound attribute that carries a rename. -/
def overrides (pool : SidePool) (free : NamePool) : Bool := (pool.outcomes free).any (·.overridesRename)

end SidePool

namespace SideCandidates

variable {free : NamePool} {pools : List SidePool}

/-- If every side has candidates, all of them are gathered. -/
theorem collect_of_possible (possible : ∀ pool ∈ pools, pool.candidates free ≠ []) (overridesRename : Bool) :
    collect free overridesRename (pools.map .ok) =
      .ok ⟨pools.map (·.candidates free), overridesRename || pools.any (·.overrides free)⟩ := by
  induction pools generalizing overridesRename with
  | nil => simp [collect]
  | cons pool rest ih =>
    rw [List.forall_mem_cons] at possible
    rw [List.map_cons, collect, if_neg (by simpa using possible.1), ih possible.2]
    simp [Except.map, SidePool.overrides, Bool.or_assoc]

end SideCandidates

section Comparing

variable {pools : List SidePool} {free : FreePool}

/-- Where every side has candidates, the verdicts on all choices decide. -/
theorem matchPools_eq_best (possible : ∀ pool ∈ pools, pool.candidates free.names ≠ []) :
    ∃ choices : List (List GroupCandidate), choices.Nodup ∧
    (∀ choice, choice ∈ choices ↔ IsChoice pools free.names choice) ∧
    matchPools (pools.map .ok) free =
      (Verdict.best (pools.any (·.overrides free.names))
        (choices.map (GroupCandidate.judge free))).mapError .failure := by
  refine ⟨choices (pools.map (·.candidates free.names)), nodup_choices ?_, fun choice => ?_, ?_⟩
  · exact List.forall_mem_map.mpr fun _ _ => SidePool.nodup_candidates
  · rw [mem_choices_iff, List.forall₂_map_right_iff]
    exact ⟨List.Forall₂.flip, List.Forall₂.flip⟩
  · rw [matchPools, SideCandidates.collect_of_possible possible]
    rfl

end Comparing

/-- If a choice fits without force, it is given if it is the only one, and else none is. -/
theorem Verdict.best_of_fits_zero {overridesRename : Bool} {verdicts : List Verdict} {found : List SideMatch}
    (listed : .fits 0 found ∈ verdicts) : best overridesRename verdicts =
      match verdicts.filterMap (foundWith? 0) with
      | [found] => .ok found
      | _ => .error .multipleSources := by
  have least : (verdicts.filterMap forced?).min? = some 0 :=
    List.min?_eq_some_iff.mpr ⟨List.mem_filterMap.mpr ⟨_, listed, rfl⟩, fun _ _ => Nat.zero_le _⟩
  rw [best_eq]
  split
  · next absent => exact nomatch least.symm.trans absent
  · next forced cheapest =>
    obtain rfl := Option.some.inj (least.symm.trans cheapest)
    rfl

/-- Whether a choice of groups uses every free attribute on some side. -/
def UsesAll (pools : List SidePool) (free : NamePool) (choice : List IdGroup) : Prop :=
  ∀ key ∈ free.keys, ∃ entry ∈ pools.zip choice, entry.1.Uses free entry.2 key

/-- A choice of one group per side that is matched by name alone and uses every attribute. -/
structure IsExact (pools : List SidePool) (free : NamePool) (choice : List IdGroup) : Prop where
  sides : List.Forall₂ (fun pool group => pool.IsNamed free group) pools choice
  used : UsesAll pools free choice

/-- A choice of one group per side that uses every free attribute by name and every bound one by name or,
one on a side, by force. -/
structure IsFilled (pools : List SidePool) (free : NamePool) (choice : List IdGroup) : Prop where
  sides : List.Forall₂ (fun pool group => pool.IsNamed free group ∨ pool.IsForced free group) pools choice
  used : UsesAll pools free choice

instance (pools : List SidePool) (free : NamePool) (choice : List IdGroup) :
    Decidable (UsesAll pools free choice) :=
  inferInstanceAs (Decidable (∀ key ∈ free.keys, ∃ entry ∈ pools.zip choice, entry.1.Uses free entry.2 key))

instance (pools : List SidePool) (free : NamePool) (choice : List IdGroup) :
    Decidable (IsExact pools free choice) :=
  decidable_of_iff (List.Forall₂ (fun pool group => pool.IsNamed free group) pools choice ∧
    UsesAll pools free choice) ⟨fun both => ⟨both.1, both.2⟩, fun exact => ⟨exact.sides, exact.used⟩⟩

theorem IsExact.isFilled {pools : List SidePool} {free : NamePool} {choice : List IdGroup}
    (exact : IsExact pools free choice) : IsFilled pools free choice :=
  ⟨exact.sides.imp fun _ _ => .inl, exact.used⟩

section Choosing

variable {pools : List SidePool} {free : FreePool} {choice : List GroupCandidate}
  (chosen : IsChoice pools free.names choice)

include chosen

/-- The choices that fit without force are the filled ones. -/
theorem GroupCandidate.exists_fits_zero_iff :
    (∃ found, judge free choice = .fits 0 found) ↔
      IsFilled pools free.names (choice.map (·.found.group)) := by
  simp only [judge_eq_fits_zero_iff, exists_and_left, exists_eq', and_true]
  have consumes : (∀ candidate ∈ choice, candidate.openSlot = none) → ∀ key, key ∈ consumedBy choice ↔
      ∃ entry ∈ pools.zip (choice.map (·.found.group)),
        entry.1.Uses free.names entry.2 key ∧ free.names.contains key = true := by
    intro closed key
    rw [mem_consumedBy_iff]
    have sides : List.Forall₂ (fun pool candidate =>
        candidate ∈ pool.candidates free.names ∧ candidate.openSlot = none) pools choice :=
      forall₂_imp_of_mem chosen fun _ _ candidate present listed => ⟨listed, closed candidate present⟩
    apply exists_mem_zip_map_iff sides
    rintro pool candidate ⟨listed, closed⟩
    exact (SidePool.of_closed listed closed).2 key
  constructor
  · intro same
    have closed : ∀ candidate ∈ choice, candidate.openSlot = none := by
      intro candidate present
      rw [Option.eq_none_iff_forall_ne_some]
      intro slot opened
      obtain ⟨pool, _, listed⟩ := exists_left_of_forall₂ chosen present
      obtain ⟨consumed, absent⟩ := SidePool.of_open listed opened
      have isFree := (same slot.key).mp (mem_consumedBy_iff.mpr ⟨candidate, present, consumed⟩)
      rw [Table.mem_keys_iff, absent] at isFree
      simp at isFree
    refine ⟨?_, fun key isFree => ?_⟩
    · rw [List.forall₂_map_right_iff]
      exact forall₂_imp_of_mem chosen fun _ _ candidate present listed =>
        (SidePool.of_closed listed (closed candidate present)).1
    · obtain ⟨entry, present, uses, _⟩ := (consumes closed key).mp ((same key).mpr isFree)
      exact ⟨entry, present, uses⟩
  · rintro ⟨sides, used⟩
    rw [List.forall₂_map_right_iff] at sides
    have closed : ∀ candidate ∈ choice, candidate.openSlot = none := by
      intro candidate present
      obtain ⟨pool, _, listed, possible⟩ := exists_left_of_forall₂ (forall₂_and chosen sides) present
      obtain ⟨other, alsoListed, same, closed⟩ := SidePool.exists_closed possible
      rwa [SidePool.eq_of_group listed alsoListed same.symm]
    intro key
    rw [consumes closed]
    constructor
    · rintro ⟨_, _, _, isFree⟩
      exact Table.mem_keys_iff.mpr (Table.contains_eq_true_iff.mp isFree)
    · intro isFree
      obtain ⟨entry, present, uses⟩ := used key isFree
      exact ⟨entry, present, uses, Table.contains_eq_true_iff.mpr (Table.mem_keys_iff.mp isFree)⟩

omit chosen in
/-- A filled choice of groups is one of candidates. -/
theorem IsFilled.exists_candidates {groups : List IdGroup} (filled : IsFilled pools free.names groups) :
    ∃ choice, IsChoice pools free.names choice ∧ choice.map (·.found.group) = groups := by
  have sides := filled.sides
  clear filled
  induction sides with
  | nil => exact ⟨[], .nil, rfl⟩
  | cons possible _ ih =>
    obtain ⟨candidate, listed, rfl, _⟩ := SidePool.exists_closed possible
    obtain ⟨choice, chosen, rfl⟩ := ih
    exact ⟨candidate :: choice, .cons listed chosen, rfl⟩

/-- A choice of candidates is known by its groups. -/
theorem GroupCandidate.choice_eq_of_groups {other : List GroupCandidate}
    (alsoChosen : IsChoice pools free.names other)
    (same : choice.map (·.found.group) = other.map (·.found.group)) : choice = other := by
  induction chosen generalizing other with
  | nil =>
    cases alsoChosen
    rfl
  | cons listed _ ih =>
    cases alsoChosen with
    | cons alsoListed others =>
      simp only [List.map_cons, List.cons.injEq] at same
      rw [SidePool.eq_of_group listed alsoListed same.1, ih others same.2]

end Choosing

section Matching

variable {pools : List SidePool} {free : FreePool} {groups : List IdGroup}

/-- Where some choice is filled, the verdicts on the choices decide by the filled ones. -/
theorem matchPools_of_filled (filled : IsFilled pools free.names groups) :
    ∃ choices : List (List GroupCandidate), choices.Nodup ∧
      (∀ choice, choice ∈ choices ↔ IsChoice pools free.names choice) ∧
      matchPools (pools.map .ok) free =
        match choices.filterMap fun choice => (GroupCandidate.judge free choice).foundWith? 0 with
        | [found] => .ok found
        | _ => .error (.failure .multipleSources) := by
  have possible : ∀ pool ∈ pools, pool.candidates free.names ≠ [] := by
    intro pool present
    obtain ⟨group, _, possible⟩ := exists_left_of_forall₂ filled.sides.flip present
    obtain ⟨candidate, listed, _⟩ := SidePool.exists_closed possible
    exact List.ne_nil_of_mem listed
  obtain ⟨choices, distinct, chosen, given⟩ := matchPools_eq_best possible
  obtain ⟨choice, listed, rfl⟩ := filled.exists_candidates
  obtain ⟨matched, fits⟩ := (GroupCandidate.exists_fits_zero_iff listed).mpr filled
  refine ⟨choices, distinct, chosen, ?_⟩
  rw [given, Verdict.best_of_fits_zero (List.mem_map.mpr ⟨choice, (chosen choice).mpr listed, fits⟩),
    List.filterMap_map]
  simp only [Function.comp_def]
  split <;> rfl

/-- The only filled choice is given. -/
theorem matchPools_of_only (filled : IsFilled pools free.names groups)
    (only : ∀ other, IsFilled pools free.names other → other = groups) :
    ∃ choice, IsChoice pools free.names choice ∧
      choice.map (·.found.group) = groups ∧
      matchPools (pools.map .ok) free = .ok (choice.map (·.found)) := by
  obtain ⟨choices, distinct, chosen, given⟩ := matchPools_of_filled filled
  obtain ⟨choice, listed, rfl⟩ := filled.exists_candidates
  obtain ⟨found, fits⟩ := (GroupCandidate.exists_fits_zero_iff listed).mpr filled
  obtain ⟨_, rfl⟩ := GroupCandidate.judge_eq_fits_zero_iff.mp fits
  refine ⟨choice, listed, rfl, ?_⟩
  rw [given, filterMap_eq_singleton distinct ((chosen choice).mpr listed)
    (Verdict.foundWith?_eq_some_iff.mpr fits)]
  intro other present kept
  have alsoListed := (chosen other).mp present
  obtain ⟨result, known⟩ := Option.isSome_iff_exists.mp kept
  refine (GroupCandidate.choice_eq_of_groups listed alsoListed (only _ ?_).symm).symm
  exact (GroupCandidate.exists_fits_zero_iff alsoListed).mp ⟨result, Verdict.foundWith?_eq_some_iff.mp known⟩

/-- Of two filled choices none is given. -/
theorem matchPools_of_two (filled : IsFilled pools free.names groups) {rival : List IdGroup}
    (alsoFilled : IsFilled pools free.names rival) (different : rival ≠ groups) :
    matchPools (pools.map .ok) free = .error (.failure .multipleSources) := by
  obtain ⟨choices, _, chosen, given⟩ := matchPools_of_filled filled
  obtain ⟨first, firstListed, rfl⟩ := filled.exists_candidates
  obtain ⟨second, secondListed, rfl⟩ := alsoFilled.exists_candidates
  obtain ⟨_, firstFits⟩ := (GroupCandidate.exists_fits_zero_iff firstListed).mpr filled
  obtain ⟨_, secondFits⟩ := (GroupCandidate.exists_fits_zero_iff secondListed).mpr alsoFilled
  rw [given]
  split
  · rename_i found single
    refine absurd single (filterMap_ne_singleton ((chosen first).mpr firstListed)
      ((chosen second).mpr secondListed) (fun same => different (by rw [same])) ?_ ?_ found)
    · exact Option.isSome_of_eq_some (Verdict.foundWith?_eq_some_iff.mpr firstFits)
    · exact Option.isSome_of_eq_some (Verdict.foundWith?_eq_some_iff.mpr secondFits)
  · rfl

end Matching

/-- A choice that uses everything as an exact one does, but forces a bound attribute to do so. -/
structure IsRival (pools : List SidePool) (free : NamePool) (choice : List IdGroup) : Prop
    extends IsFilled pools free choice where
  forced : ∃ entry ∈ pools.zip choice, entry.1.IsForced free entry.2

/-- A filled choice is exact unless it forces a bound attribute. -/
theorem IsFilled.exact_or_rival {pools : List SidePool} {free : NamePool} {choice : List IdGroup}
    (filled : IsFilled pools free choice) : IsExact pools free choice ∨ IsRival pools free choice := by
  by_cases forced : ∃ entry ∈ pools.zip choice, entry.1.IsForced free entry.2
  · exact .inr ⟨filled, forced⟩
  · refine .inl ⟨?_, filled.used⟩
    obtain ⟨same, sides⟩ := List.forall₂_iff_zip.mp filled.sides
    refine List.forall₂_iff_zip.mpr ⟨same, fun {pool group} listed => ?_⟩
    exact (sides listed).resolve_right fun isForced => forced ⟨_, listed, isForced⟩

theorem IsExact.not_isRival {pools : List SidePool} {free : NamePool} {choice : List IdGroup}
    (exact : IsExact pools free choice) : ¬ IsRival pools free choice := by
  rintro ⟨_, ⟨pool, group⟩, listed, forced⟩
  exact (List.forall₂_zip exact.sides listed).not_isForced forced

namespace Partition

variable {partition : Partition} {general : Table Name Name} {names : NamePool} {pools : List SidePool}
  (named : NamePool.ofAttributes partition.free general = .ok names)
  (pooled : List.Forall₂ (fun source pool => source.pool = .ok pool) partition.sources pools)

include named pooled

theorem match?_eq_matchPools : partition.match? general = matchPools (pools.map .ok) ⟨names, general.keys⟩ := by
  have sources : partition.sources.map (·.pool) = pools.map .ok :=
    (map_eq_of_forall₂ pooled fun _ _ same => same.symm).symm
  simp only [match?, named, sources]

/-- An exact choice that no other filled choice stands beside is given, matched by name. -/
theorem match?_of_only {choice : List IdGroup} (exact : IsExact pools names choice)
    (only : ∀ other, IsFilled pools names other → other = choice) :
    ∃ found, partition.match? general = .ok found ∧ found.map (·.group) = choice ∧
      List.Forall₂ (fun pool side => SideMatch.IsByName pool names side) pools found := by
  have filled : IsFilled pools (FreePool.mk names general.keys).names choice := exact.isFilled
  obtain ⟨candidates, listed, rfl, given⟩ := matchPools_of_only filled only
  refine ⟨_, (match?_eq_matchPools named pooled).trans given, List.map_map, ?_⟩
  rw [List.forall₂_map_right_iff]
  refine (forall₂_and listed (List.forall₂_map_right_iff.mp exact.sides)).imp ?_
  rintro pool candidate ⟨present, byName⟩
  exact pool.isByName_of_named present byName

/-- If just one choice is exact, it is given, matched by name, unless a rival uses everything by forcing
bound attributes; then the match fails for its many solutions. -/
theorem match?_exact {choice : List IdGroup} (exact : IsExact pools names choice)
    (only : ∀ other, IsExact pools names other → other = choice) :
    ((¬ ∃ rival, IsRival pools names rival) → ∃ found, partition.match? general = .ok found ∧
      found.map (·.group) = choice ∧
      List.Forall₂ (fun pool side => SideMatch.IsByName pool names side) pools found) ∧
    ((∃ rival, IsRival pools names rival) →
      partition.match? general = .error (.failure .multipleSources)) := by
  constructor
  · intro alone
    refine match?_of_only named pooled exact fun other filled => ?_
    rcases filled.exact_or_rival with alsoExact | rival
    · exact only other alsoExact
    · exact absurd ⟨other, rival⟩ alone
  · rintro ⟨rival, stands⟩
    rw [match?_eq_matchPools named pooled]
    refine matchPools_of_two exact.isFilled stands.toIsFilled ?_
    rintro rfl
    exact exact.not_isRival stands

end Partition

namespace Sample

/-- Parts are identified by a serial number or by a code. -/
def part : Declaration.Class :=
  { name := "Part"
    attributes := [
      { name := "Serial", scalar := some "Number", identifiers := [.first] },
      { name := "Code", scalar := some "Number", identifiers := [.second] }] }

/-- A slot refers to its part by a serial number that navigates to the part, perhaps under a rename. -/
def slots (renames : List (Name × Name)) : Partition :=
  { sources := [
      { side := .active
        referred := .ofDeclaration part 1 "Depot"
        bound := ["Serial"]
        renames := .ofList renames }]
    free := [] }

end Sample

/-- If one group only is matched by name on the only side, it is the only exact choice. -/
theorem IsExact.eq_singleton {pool : SidePool} {free : NamePool} {group : IdGroup}
    (only : ∀ other ∈ IdGroup.all, pool.IsNamed free other → other = group) {choice : List IdGroup}
    (exact : IsExact [pool] free choice) : choice = [group] := by
  obtain ⟨other, rest, named, none, rfl⟩ := List.forall₂_cons_left_iff.mp exact.sides
  rw [List.forall₂_nil_left_iff.mp none, only other (by cases other <;> decide) named]

namespace Partition

/-- The serial number under a rename is matched by name only, and so the part is identified by it. -/
theorem match?_exact_slots : ∃ names pool found,
    NamePool.ofAttributes (Sample.slots [("Serial", "Serial")]).free .empty = .ok names ∧
    List.Forall₂ (fun source pool => source.pool = .ok pool)
      (Sample.slots [("Serial", "Serial")]).sources [pool] ∧
    IsExact [pool] names [.first] ∧ (∀ other, IsExact [pool] names other → other = [.first]) ∧
    (¬ ∃ rival, IsRival [pool] names rival) ∧
    (Sample.slots [("Serial", "Serial")]).match? .empty = .ok found ∧ found.map (·.group) = [.first] := by
  have ran : ((NamePool.ofAttributes (Sample.slots [("Serial", "Serial")]).free .empty).toOption.bind
      fun names => ((Sample.slots [("Serial", "Serial")]).sources.head?.bind (·.pool.toOption)).map fun pool =>
        decide (List.Forall₂ (fun source pool => source.pool = .ok pool)
            (Sample.slots [("Serial", "Serial")]).sources [pool] ∧
          IsExact [pool] names [.first] ∧ (∀ other ∈ IdGroup.all, pool.IsNamed names other → other = .first) ∧
          ∀ other ∈ IdGroup.all, ¬ pool.IsForced names other)) = some true := by
    decide +kernel
  simp only [Option.bind_eq_some_iff, Option.map_eq_some_iff, toOption_eq_some_iff, decide_eq_true_eq] at ran
  obtain ⟨names, named, pool, _, pooled, exact, byName, plain⟩ := ran
  have only := fun other (alsoExact : IsExact [pool] names other) => alsoExact.eq_singleton byName
  have alone : ¬ ∃ rival, IsRival [pool] names rival := by
    rintro ⟨rival, _, ⟨side, group⟩, listed, forced⟩
    rw [List.mem_singleton.mp (List.of_mem_zip listed).1] at forced
    exact plain group (by cases group <;> decide) forced
  obtain ⟨found, matched, groups, _⟩ := (match?_exact named pooled exact only).1 alone
  exact ⟨names, pool, found, named, pooled, exact, only, alone, matched, groups⟩

/-- Without the rename the serial number is matched by name just as well, but as it can also be forced to
stand in for the code, nothing is given. -/
theorem match?_tied_slots : ∃ names pool,
    NamePool.ofAttributes (Sample.slots []).free .empty = .ok names ∧
    List.Forall₂ (fun source pool => source.pool = .ok pool) (Sample.slots []).sources [pool] ∧
    IsExact [pool] names [.first] ∧ (∀ other, IsExact [pool] names other → other = [.first]) ∧
    (Sample.slots []).match? .empty = .error (.failure .multipleSources) := by
  have ran : ((NamePool.ofAttributes (Sample.slots []).free .empty).toOption.bind
      fun names => ((Sample.slots []).sources.head?.bind (·.pool.toOption)).map fun pool =>
        decide (List.Forall₂ (fun source pool => source.pool = .ok pool) (Sample.slots []).sources [pool] ∧
          IsExact [pool] names [.first] ∧ (∀ other ∈ IdGroup.all, pool.IsNamed names other → other = .first) ∧
          (Sample.slots []).match? .empty = .error (.failure .multipleSources))) = some true := by
    decide +kernel
  simp only [Option.bind_eq_some_iff, Option.map_eq_some_iff, toOption_eq_some_iff, decide_eq_true_eq] at ran
  obtain ⟨names, named, pool, _, pooled, exact, byName, tied⟩ := ran
  exact ⟨names, pool, named, pooled, exact, fun other alsoExact => alsoExact.eq_singleton byName, tied⟩

end Partition

end ClassModel
