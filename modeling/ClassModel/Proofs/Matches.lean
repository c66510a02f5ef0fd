import ClassModel.Analysis.References
import ClassModel.Proofs.Candidates
import ClassModel.Proofs.Standings

/-! # What a match uses

A match gives every side that a class refers to an identifier group of the class there and an
attribute for each member. It uses every attribute bound to a side on that side and every free
one on some side. That no open slot stays open is a matter of counting: a fitting choice consumes
as many names as there are free attributes, so if it leaves one of them out it consumes exactly one
name that no free attribute has, and that is the name of every open slot.
-/

namespace ClassModel

theorem mem_choices_iff {α : Type} {lists : List (List α)} {choice : List α} :
    choice ∈ choices lists ↔ List.Forall₂ (fun item items => item ∈ items) choice lists := by
  induction lists generalizing choice with
  | nil => cases choice <;> simp [choices]
  | cons items rest ih =>
    simp only [choices, List.mem_flatMap, List.mem_map, ih, List.forall₂_cons_right_iff]
    constructor
    · rintro ⟨item, listed, later, others, rfl⟩
      exact ⟨item, later, listed, others, rfl⟩
    · rintro ⟨item, later, listed, others, rfl⟩
      exact ⟨item, listed, later, others, rfl⟩

/-- The candidates of each side are what comes of the groups of its pool. -/
theorem SideCandidates.collect_sides {free : NamePool} {overridesRename : Bool}
    {sides : List (Except Name SidePool)} {found : SideCandidates}
    (success : collect free overridesRename sides = .ok found) :
    List.Forall₂ (fun side candidates => ∃ pool, side = .ok pool ∧
      candidates = (pool.outcomes free).filterMap (·.candidate?)) sides found.sides := by
  induction sides generalizing overridesRename found with
  | nil =>
    cases success
    exact .nil
  | cons side rest ih =>
    cases side with
    | error name => simp [collect] at success
    | ok pool =>
      simp only [collect] at success
      split at success
      · simp at success
      · obtain ⟨later, ran, rfl⟩ := map_eq_ok_iff.mp success
        exact .cons ⟨pool, rfl, rfl⟩ (ih ran)

namespace Verdict

/-- The best of some verdicts is one of them. -/
theorem mem_of_best {overridesRename : Bool} {verdicts : List Verdict} {found : List SideMatch}
    (success : best overridesRename verdicts = .ok found) :
    ∃ forced, .fits forced found ∈ verdicts := by
  rw [best_eq] at success
  split at success
  · simp at success
  · rename_i least _
    split at success
    · rename_i only single
      cases success
      have listed : found ∈ verdicts.filterMap (foundWith? least) := by simp [single]
      obtain ⟨verdict, present, fits⟩ := List.mem_filterMap.mp listed
      rw [foundWith?_eq_some_iff.mp fits] at present
      exact ⟨least, present⟩
    · simp at success

end Verdict

/-- What a match gives one side of a partition. -/
structure SideMatch.Covers (source : SourceSide) (free : List Name) (found : SideMatch) : Prop where
  side : found.side = source.side
  referred : found.referred = source.referred.name
  members : ∃ members, source.referred.identifiers.members? found.group = some members ∧
    ∀ identifier, identifier ∈ found.assignment.keys ↔ identifier ∈ members
  bound : ∀ attr ∈ source.bound, attr ∈ found.assignment.values
  values : ∀ attr ∈ found.assignment.values, attr ∈ source.bound ∨ attr ∈ free

namespace GroupCandidate

theorem mem_consumedBy_iff {choice : List GroupCandidate} {key : Name} :
    key ∈ consumedBy choice ↔ ∃ candidate ∈ choice, key ∈ candidate.consumed := by
  simp [consumedBy, NameSet.mem_foldl_union]

/-- How a fitting choice fills its open slots: with a free attribute that is left over, into the
one slot that lacks one. The one left over goes by a name that is not consumed, and does not carry a
rename if there is a slot to fill. Every free attribute is consumed or is the one left over, and then
there is a name consumed that no free attribute has. -/
structure Filling (free : FreePool) (choice : List GroupCandidate)
    (missing leftover : Option Name) : Prop where
  slots : ∀ candidate ∈ choice, ∀ slot, candidate.openSlot = some slot →
    some slot.key = missing ∧ leftover.isSome = true
  unused : ∀ attr, leftover = some attr →
    ∃ key, free.names.get? key = some attr ∧ key ∉ consumedBy choice
  plain : ∀ candidate ∈ choice, ∀ slot, candidate.openSlot = some slot →
    ∀ attr, leftover = some attr → attr ∉ free.renamed
  used : ∀ key attr, free.names.get? key = some attr → key ∈ consumedBy choice ∨
    leftover = some attr ∧ ∃ lacking ∈ consumedBy choice, free.names.get? lacking = none

theorem Filling.spare {free : FreePool} {choice : List GroupCandidate} {missing leftover : Option Name}
    (filling : Filling free choice missing leftover) (attr : Name) (left : leftover = some attr) :
    attr ∈ free.names.values := by
  obtain ⟨key, known, _⟩ := filling.unused attr left
  exact Table.mem_values_of_get? known

theorem filling_of_judge {free : FreePool} {choice : List GroupCandidate} {forced : Nat}
    {found : List SideMatch} (fits : judge free choice = .fits forced found)
    (slots : ∀ candidate ∈ choice, ∀ slot, candidate.openSlot = some slot →
      slot.key ∈ candidate.consumed ∧ free.names.get? slot.key = none) :
    ∃ missing leftover, Filling free choice missing leftover ∧
      found = choice.map (·.fill missing leftover) := by
  have isFree : ∀ key, key ∈ NameSet.ofList free.names.keys ↔ ∃ attr, free.names.get? key = some attr :=
    fun key => NameSet.mem_ofList.trans Table.mem_keys_iff
  unfold judge at fits
  dsimp only at fits
  generalize NameSet.ofList free.names.keys = available at isFree fits
  split at fits
  · simp at fits
  rename_i fit
  push Not at fit
  obtain ⟨same, few⟩ := fit
  have fewLacking : ((consumedBy choice).difference available).size ≤ 1 :=
    NameSet.size_difference_comm same ▸ few
  split at fits
  · simp at fits
  rename_i permitted
  cases fits
  have filled : ∀ candidate ∈ choice, ∀ slot, candidate.openSlot = some slot →
      some slot.key = ((consumedBy choice).difference available).toList.head? ∧
        ((available.difference (consumedBy choice)).toList.head?.bind free.names.get?).isSome = true := by
    intro candidate listed slot opened
    obtain ⟨consumed, absent⟩ := slots candidate listed slot opened
    have lacking : slot.key ∈ (consumedBy choice).difference available := by
      refine NameSet.mem_difference.mpr ⟨mem_consumedBy_iff.mpr ⟨_, listed, consumed⟩, ?_⟩
      rw [isFree, absent]
      simp
    obtain ⟨rest, unused⟩ := NameSet.exists_mem_difference same lacking
    obtain ⟨attr, known⟩ := (isFree rest).mp (NameSet.mem_difference.mp unused).1
    rw [NameSet.toList_eq_singleton fewLacking lacking, NameSet.toList_eq_singleton few unused]
    simp [known]
  refine ⟨_, _, ⟨filled, ?_, ?_, ?_⟩, rfl⟩
  · intro attr left
    obtain ⟨key, first, known⟩ := Option.bind_eq_some_iff.mp left
    have unused : key ∈ available.difference (consumedBy choice) := List.mem_of_mem_head? first
    exact ⟨key, known, (NameSet.mem_difference.mp unused).2⟩
  · intro candidate listed slot opened attr left renamed
    refine permitted (Bool.and_eq_true_iff.mpr ⟨List.any_eq_true.mpr ⟨candidate, listed, ?_⟩, ?_⟩)
    · simpa [lacks, opened] using (filled candidate listed slot opened).1
    · simpa [left] using renamed
  · intro key attr known
    by_cases consumed : key ∈ consumedBy choice
    · exact .inl consumed
    · have unused : key ∈ available.difference (consumedBy choice) :=
        NameSet.mem_difference.mpr ⟨(isFree key).mpr ⟨attr, known⟩, consumed⟩
      obtain ⟨lack, lacking⟩ := NameSet.exists_mem_difference same.symm unused
      obtain ⟨inUse, absent⟩ := NameSet.mem_difference.mp lacking
      refine .inr ⟨by rw [NameSet.toList_eq_singleton few unused]; exact known, lack, inUse, ?_⟩
      rw [isFree, not_exists] at absent
      exact Option.eq_none_iff_forall_ne_some.mpr absent

@[simp] theorem side_fill (candidate : GroupCandidate) (missing leftover : Option Name) :
    (candidate.fill missing leftover).side = candidate.found.side := by
  unfold fill
  split
  · split <;> rfl
  · rfl

@[simp] theorem referred_fill (candidate : GroupCandidate) (missing leftover : Option Name) :
    (candidate.fill missing leftover).referred = candidate.found.referred := by
  unfold fill
  split
  · split <;> rfl
  · rfl

@[simp] theorem group_fill (candidate : GroupCandidate) (missing leftover : Option Name) :
    (candidate.fill missing leftover).group = candidate.found.group := by
  unfold fill
  split
  · split <;> rfl
  · rfl

/-- A fitting choice gives its candidates with their slots filled. -/
theorem exists_fill_of_judge {free : FreePool} {choice : List GroupCandidate} {forced : Nat}
    {found : List SideMatch} (fits : judge free choice = .fits forced found) :
    ∃ missing leftover, found = choice.map (·.fill missing leftover) := by
  unfold judge at fits
  dsimp only at fits
  split at fits
  · cases fits
  · split at fits
    · cases fits
    · cases fits
      exact ⟨_, _, rfl⟩

/-- A candidate with its slot filled covers its side. -/
theorem Covers.fill {source : SourceSide} {pool : SidePool} (pooled : source.pool = .ok pool)
    {names : NamePool} {candidate : GroupCandidate} (covers : candidate.Covers pool names)
    {missing leftover : Option Name}
    (slots : ∀ slot, candidate.openSlot = some slot → some slot.key = missing ∧ leftover.isSome = true)
    (spare : ∀ attr, leftover = some attr → attr ∈ names.values) :
    (candidate.fill missing leftover).Covers source names.values ∧
      (∀ attr ∈ candidate.found.assignment.values,
        attr ∈ (candidate.fill missing leftover).assignment.values) ∧
      ∀ slot attr, candidate.openSlot = some slot → leftover = some attr →
        attr ∈ (candidate.fill missing leftover).assignment.values := by
  obtain ⟨bound, bounded, same⟩ := bind_eq_ok_iff.mp pooled
  cases same
  have boundValues := NamePool.values_ofAttributes bounded
  obtain ⟨members, defined, membersIff⟩ := covers.members
  cases opened : candidate.openSlot with
  | none =>
    have filled : candidate.fill missing leftover = candidate.found := by
      unfold GroupCandidate.fill
      rw [opened]
    rw [filled]
    refine ⟨⟨covers.side, covers.referred, ⟨members, defined, fun identifier => ?_⟩, ?_, ?_⟩,
      fun _ present => present, by simp⟩
    · simp [membersIff, opened]
    · exact boundValues ▸ covers.bound
    · exact boundValues ▸ covers.values
  | some slot =>
    obtain ⟨lacks, present⟩ := slots slot opened
    obtain ⟨attr, rfl⟩ := Option.isSome_iff_exists.mp present
    have filled : candidate.fill missing (some attr) = { candidate.found with
        assignment := candidate.found.assignment.insert slot.identifier attr } := by
      unfold GroupCandidate.fill
      rw [opened]
      exact if_pos lacks
    have absent := (covers.openSlot slot opened).2.2
    have kept : ∀ other ∈ candidate.found.assignment.values,
        other ∈ (candidate.found.assignment.insert slot.identifier attr).values :=
      fun other => Table.mem_values_insert_of_absent absent
    rw [filled]
    refine ⟨⟨covers.side, covers.referred, ⟨members, defined, fun identifier => ?_⟩,
      fun other bound => kept other (covers.bound other (boundValues ▸ bound)), fun other used => ?_⟩,
      kept, ?_⟩
    · rw [membersIff, Table.mem_keys_insert, or_comm]
      simp [opened, eq_comm]
    · rcases Table.mem_values_insert used with rfl | early
      · exact .inr (spare _ rfl)
      · exact boundValues ▸ covers.values other early
    · rintro _ _ _ ⟨⟩
      exact Table.mem_values_insert_self ..

end GroupCandidate

namespace Partition

/-- A match of a partition is a choice of one candidate per side, with the open slots filled. -/
theorem match?_eq_ok {partition : Partition} {general : Table Name Name} {found : List SideMatch}
    (success : partition.match? general = .ok found) : ∃ names choice forced,
      NamePool.ofAttributes partition.free general = .ok names ∧
      List.Forall₂ (fun source candidate => ∃ pool, source.pool = .ok pool ∧
        candidate ∈ (pool.outcomes names).filterMap (·.candidate?)) partition.sources choice ∧
      GroupCandidate.judge ⟨names, general.keys⟩ choice = .fits forced found := by
  unfold match? at success
  split at success
  · simp at success
  · rename_i names named
    unfold matchPools at success
    split at success
    · simp at success
    · rename_i candidates collected
      obtain ⟨forced, listed⟩ := Verdict.mem_of_best (mapError_eq_ok_iff.mp success)
      obtain ⟨choice, chosen, judged⟩ := List.mem_map.mp listed
      have sides := SideCandidates.collect_sides collected
      rw [List.forall₂_map_left_iff] at sides
      refine ⟨names, choice, forced, named, ?_, judged⟩
      refine (forall₂_of_common sides (mem_choices_iff.mp chosen)).imp ?_
      rintro source candidate ⟨_, ⟨pool, pooled, rfl⟩, listed⟩
      exact ⟨pool, pooled, listed⟩

/-- A match of a partition is a choice of one covering candidate per side, with the open slots filled. -/
theorem match?_eq_fill {partition : Partition} {general : Table Name Name} {found : List SideMatch}
    (distinct : ∀ source ∈ partition.sources, ∀ group members,
      source.referred.identifiers.members? group = some members → members.Nodup)
    (success : partition.match? general = .ok found) : ∃ names choice missing leftover,
      NamePool.ofAttributes partition.free general = .ok names ∧
      List.Forall₂ (fun source candidate => ∃ pool, source.pool = .ok pool ∧
        candidate ∈ (pool.outcomes names).filterMap (·.candidate?) ∧ candidate.Covers pool names)
        partition.sources choice ∧
      GroupCandidate.Filling ⟨names, general.keys⟩ choice missing leftover ∧
      found = choice.map (·.fill missing leftover) := by
  obtain ⟨names, choice, forced, named, chosen, judged⟩ := match?_eq_ok success
  have covers : List.Forall₂ (fun source candidate => ∃ pool, source.pool = .ok pool ∧
      candidate ∈ (pool.outcomes names).filterMap (·.candidate?) ∧ candidate.Covers pool names)
      partition.sources choice := by
    refine forall₂_imp_of_mem chosen ?_
    rintro source listed candidate _ ⟨pool, pooled, formed⟩
    obtain ⟨bound, _, same⟩ := bind_eq_ok_iff.mp pooled
    cases same
    exact ⟨_, pooled, formed, SidePool.outcomes_cover (distinct source listed) formed⟩
  obtain ⟨missing, leftover, filling, same⟩ := GroupCandidate.filling_of_judge judged
    fun candidate listed slot opened => by
      obtain ⟨_, _, _, _, _, holds⟩ := exists_left_of_forall₂ covers listed
      exact ⟨(holds.openSlot slot opened).1, (holds.openSlot slot opened).2.1⟩
  exact ⟨names, choice, missing, leftover, named, covers, filling, same⟩

/-- A match covers every side and uses every free attribute on some side. -/
theorem match?_covers {partition : Partition} {general : Table Name Name} {found : List SideMatch}
    (distinct : ∀ source ∈ partition.sources, ∀ group members,
      source.referred.identifiers.members? group = some members → members.Nodup)
    (success : partition.match? general = .ok found) :
    List.Forall₂ (fun source found => SideMatch.Covers source partition.free found)
        partition.sources found ∧
      ∀ attr ∈ partition.free, ∃ side ∈ found, attr ∈ side.assignment.values := by
  obtain ⟨names, choice, missing, leftover, named, covers, filling, rfl⟩ := match?_eq_fill distinct success
  have freeValues := NamePool.values_ofAttributes named
  have each : ∀ candidate ∈ choice, ∃ (source : SourceSide) (pool : SidePool), source.pool = .ok pool ∧
      candidate.Covers pool names := by
    intro candidate listed
    obtain ⟨source, _, pool, pooled, _, holds⟩ := exists_left_of_forall₂ covers listed
    exact ⟨source, pool, pooled, holds⟩
  constructor
  · rw [List.forall₂_map_right_iff, ← freeValues]
    refine forall₂_imp_of_mem covers ?_
    rintro source _ candidate listed ⟨pool, pooled, _, holds⟩
    exact (holds.fill pooled (filling.slots candidate listed) filling.spare).1
  · intro attr present
    obtain ⟨key, known⟩ := Table.mem_values_iff.mp (freeValues ▸ present)
    rcases filling.used key attr known with consumed | ⟨left, lack, lacking, absent⟩
    · obtain ⟨candidate, listed, consumed⟩ := GroupCandidate.mem_consumedBy_iff.mp consumed
      obtain ⟨source, pool, pooled, holds⟩ := each candidate listed
      refine ⟨_, List.mem_map_of_mem listed, ?_⟩
      rcases holds.consumed key consumed with ⟨other, found, inUse⟩ | ⟨slot, opened, same⟩
      · rw [known] at found
        cases found
        exact (holds.fill pooled (filling.slots candidate listed) filling.spare).2.1 attr inUse
      · have none := (holds.openSlot slot opened).2.1
        rw [same, known] at none
        cases none
    · obtain ⟨candidate, listed, consumed⟩ := GroupCandidate.mem_consumedBy_iff.mp lacking
      obtain ⟨source, pool, pooled, holds⟩ := each candidate listed
      refine ⟨_, List.mem_map_of_mem listed, ?_⟩
      rcases holds.consumed lack consumed with ⟨other, found, _⟩ | ⟨slot, opened, same⟩
      · rw [absent] at found
        cases found
      · exact (holds.fill pooled (filling.slots candidate listed) filling.spare).2.2 slot attr opened left

end Partition

namespace ClassMatches

/-- What a match over a relationship is to a partition of the attributes it is given. Side by side it
has one entry for each class referred to; an entry gives every member of an identifier group of that
class an attribute, uses all attributes bound to its side and none that is bound to another side
only; and every free attribute is used on some side. -/
structure IsComplete (classes : Table Name Resolved.Class)
    (relationships : Table Rnum Resolved.Relationship) (className : Name) (rnum : Rnum)
    (attrs : List Name) (partition : Partition) (found : List SideMatch) : Prop where
  sides : ∃ relationship, relationships.get? rnum = some relationship ∧
    relationship.farEnds? className = some (found.map fun side => (side.side, side.referred))
  each : List.Forall₂ (fun source side =>
    side.side = source.side ∧ classes.get? side.referred = some source.referred ∧
    (∃ members, source.referred.identifiers.members? side.group = some members ∧
      ∀ identifier, identifier ∈ side.assignment.keys ↔ identifier ∈ members) ∧
    (∀ attr ∈ source.bound, attr ∈ side.assignment.values) ∧
    ∀ attr ∈ side.assignment.values, attr ∈ attrs ∧
      ∀ other ∈ partition.sources, attr ∈ other.bound → attr ∈ source.bound)
    partition.sources found
  free : ∀ attr ∈ partition.free, ∃ side ∈ found, attr ∈ side.assignment.values

theorem matchOver_eq_ok_iff {classes : Table Name Resolved.Class}
    {relationships : Table Rnum Resolved.Relationship} {cls : Resolved.Class} {layout : Layout}
    {rnum : Rnum} {attrs : List Name} {result : Rnum × List SideMatch} :
    matchOver classes relationships cls layout (rnum, attrs) = .ok result ↔ ∃ partition,
      Partition.ofAttributes classes relationships cls layout rnum attrs = .ok partition ∧
      partition.match? (layout.renamesOver rnum) = .ok result.2 ∧ result.1 = rnum := by
  obtain ⟨number, found⟩ := result
  unfold matchOver
  rw [bind_eq_ok_iff]
  refine exists_congr fun partition => and_congr_right fun _ => ?_
  split
  · rename_i sides matched
    simp [matched, and_comm, eq_comm]
  · rename_i name collision
    simp [collision]
  · rename_i reason failed
    simp [failed]

/-- Over well-formed tables a match is complete. -/
theorem isComplete_of_matchOver {classes : Table Name Resolved.Class}
    {relationships : Table Rnum Resolved.Relationship} (sound : WellFormed relationships classes)
    {cls : Resolved.Class} {layout : Layout} {rnum : Rnum} {attrs : List Name}
    {result : Rnum × List SideMatch}
    (matched : matchOver classes relationships cls layout (rnum, attrs) = .ok result) :
    ∃ partition, Partition.ofAttributes classes relationships cls layout rnum attrs = .ok partition ∧
      IsComplete classes relationships cls.name rnum attrs partition result.2 := by
  obtain ⟨partition, divided, matched, _⟩ := matchOver_eq_ok_iff.mp matched
  refine ⟨partition, divided, ?_⟩
  obtain ⟨⟨relationship, known, far, offered, ends⟩, free, bound⟩ :=
    Partition.ofAttributes_divides divided
  have referred : ∀ source ∈ partition.sources,
      classes.get? source.referred.name = some source.referred := by
    intro source listed
    obtain ⟨⟨side, name⟩, _, _, found⟩ := exists_left_of_forall₂ ends listed
    rwa [sound.className _ _ found]
  obtain ⟨covers, used⟩ := Partition.match?_covers
    (fun source listed => sound.membersNodup _ _ (referred source listed)) matched
  refine ⟨⟨relationship, known, ?_⟩, forall₂_imp_of_mem covers ?_, used⟩
  · have same : result.2.map (fun side => (side.side, side.referred)) =
        partition.sources.map fun source => (source.side, source.referred.name) :=
      map_eq_of_forall₂ covers fun source side holds => by rw [holds.side, holds.referred]
    have opposite : partition.sources.map (fun source => (source.side, source.referred.name)) =
        far.map id :=
      map_eq_of_forall₂ ends fun _ source holds =>
        Prod.ext holds.1 (sound.className _ _ holds.2)
    rw [offered, same, opposite, List.map_id]
  · intro source listed side _ holds
    refine ⟨holds.side, holds.referred ▸ referred source listed, holds.members, holds.bound, ?_⟩
    intro attr inUse
    rcases holds.values attr inUse with bounded | unbound
    · exact ⟨(bound source listed attr bounded).1, fun _ _ _ => bounded⟩
    · rw [free, List.mem_filter, List.isEmpty_iff] at unbound
      exact ⟨unbound.1, fun other present bounded =>
        absurd unbound.2 (bound other present attr bounded).2⟩

/-- In every model, over every relationship and for every list of attributes of a class, a match
that is found is complete. -/
theorem matchOver_complete {input : ModelInput} {options : AnalysisOptions} {merged : Merged}
    (merging : Merged.ofInput input options = .ok merged) {classes : Table Name Resolved.Class}
    (navigating : navigateClasses merged.relationships merged.classes = .ok classes)
    {cls : Resolved.Class} {layout : Layout} {rnum : Rnum} {attrs : List Name}
    {result : Rnum × List SideMatch}
    (matched : matchOver classes merged.relationships cls layout (rnum, attrs) = .ok result) :
    ∃ partition,
      Partition.ofAttributes classes merged.relationships cls layout rnum attrs = .ok partition ∧
      IsComplete classes merged.relationships cls.name rnum attrs partition result.2 :=
  isComplete_of_matchOver ((Merged.wellFormed merging).navigate navigating) matched

end ClassMatches

namespace Sample

/-- Employees are identified by a number and their branch. -/
def employee : Declaration.Class :=
  { name := "Employee"
    attributes := [
      { name := "ID", scalar := some "Number", identifiers := [.first] },
      { name := "Branch", scalar := some "City", identifiers := [.first] }] }

/-- Who mentors whom: two bound attributes, and one of another name for the branch of both. -/
def mentoring : Declaration.Class :=
  { name := "Mentoring"
    attributes := [
      { name := "Mentor", hints := [{ phrase := some "mentors", rename := some "ID" }] },
      { name := "Pupil", hints := [{ phrase := some "learns from", rename := some "ID" }] },
      { name := "Office", relationships := [⟨"R1"⟩] }] }

/-- A reflexive association with an association class. -/
def staff : ModelInput :=
  { subsystems := [
      { name := "Staff"
        classes := [employee, mentoring]
        relationships := [
          ⟨⟨"R1"⟩, .association ⟨"Employee", "mentors", .many, false⟩
            ⟨"Employee", "learns from", .many, false⟩ (some "Mentoring")⟩] }] }

end Sample

namespace ClassMatches

/-- The match of the mentoring class uses both bound attributes on their own side and the third one
on both. -/
theorem matchOver_complete_staff : ∃ merged classes cls layout result partition,
    Merged.ofInput Sample.staff {} = .ok merged ∧
    navigateClasses merged.relationships merged.classes = .ok classes ∧
    classes.get? "Mentoring" = some cls ∧ Layout.ofClass cls = .ok layout ∧
    matchOver classes merged.relationships cls layout (⟨"R1"⟩, ["Mentor", "Pupil", "Office"]) =
      .ok result ∧
    result.2.map (·.assignment.entries) =
      [[("ID", "Mentor"), ("Branch", "Office")], [("ID", "Pupil"), ("Branch", "Office")]] ∧
    IsComplete classes merged.relationships cls.name ⟨"R1"⟩ ["Mentor", "Pupil", "Office"] partition
      result.2 := by
  have ran : ((Merged.ofInput Sample.staff {}).toOption.bind fun merged =>
      (navigateClasses merged.relationships merged.classes).toOption.bind fun classes =>
      (classes.get? "Mentoring").bind fun cls =>
      (Layout.ofClass cls).toOption.bind fun layout =>
      (matchOver classes merged.relationships cls layout
        (⟨"R1"⟩, ["Mentor", "Pupil", "Office"])).toOption.map fun result =>
      result.2.map (·.assignment.entries)) =
      some [[("ID", "Mentor"), ("Branch", "Office")], [("ID", "Pupil"), ("Branch", "Office")]] := by
    decide +kernel
  simp only [Option.bind_eq_some_iff, Option.map_eq_some_iff, toOption_eq_some_iff] at ran
  obtain ⟨merged, merging, classes, navigating, cls, present, layout, laid, result, matched, same⟩ := ran
  obtain ⟨partition, _, complete⟩ := matchOver_complete merging navigating matched
  exact ⟨merged, classes, cls, layout, result, partition, merging, navigating, present, laid, matched,
    same, complete⟩

end ClassMatches

end ClassModel
