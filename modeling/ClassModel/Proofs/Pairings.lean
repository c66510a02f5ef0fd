import ClassModel.Proofs.Records

/-! # How a match pairs attributes

A member of an identifier group gets its attribute by name or by force. By name it gets the bound or
free attribute that goes by the name under which the member is looked for; by force it gets an
attribute that carries no rename and is not in use. A bound attribute remains no longer once it is in
use. So one attribute stands in for two members only if it is free and they are looked for under one
name, and then they have the same name up to case.
-/

namespace ClassModel

namespace NamePool

/-- A pool finds just the attributes that it is made of, under the names that they go by. -/
theorem get?_ofAttributes {attrs : List Name} {renames : Table Name Name} {pool : NamePool}
    (success : ofAttributes attrs renames = .ok pool) {key attr : Name} :
    pool.get? key = some attr ↔ attr ∈ attrs ∧ keyOf renames attr = key := by
  rw [Table.get?_eq_some_iff, (ofAttributes_eq_ok_iff.mp success).2]
  simp only [List.mem_map, Prod.mk.injEq]
  constructor
  · rintro ⟨_, listed, named, rfl⟩
    exact ⟨listed, named⟩
  · rintro ⟨listed, named⟩
    exact ⟨attr, listed, named, rfl⟩

/-- Two pools in which every attribute goes by one name, and which have none in common. -/
structure Apart (bound free : NamePool) : Prop where
  boundKey : ∀ {first second attr},
    bound.get? first = some attr → bound.get? second = some attr → first = second
  freeKey : ∀ {first second attr},
    free.get? first = some attr → free.get? second = some attr → first = second
  disjoint : ∀ {attr}, attr ∈ bound.values → attr ∉ free.values

end NamePool

/-- Two members of an assignment that have one attribute are related, and the attribute with them. -/
def Table.Shares (assignment : Table Name Name) (related : Name → Name → Name → Prop) : Prop :=
  ∀ first second attr, first ≠ second → assignment.get? first = some attr →
    assignment.get? second = some attr → related first second attr

/-- A new entry keeps shared attributes related, if those are that share its attribute. -/
theorem Table.Shares.insert {assignment : Table Name Name} {related : Name → Name → Name → Prop}
    (shares : assignment.Shares related) {identifier attr : Name}
    (new : ∀ other, other ≠ identifier → assignment.get? other = some attr →
      related identifier other attr ∧ related other identifier attr) :
    (assignment.insert identifier attr).Shares related := by
  intro first second value different one two
  rw [get?_insert] at one two
  split at one <;> split at two
  · rename_i left right
    exact absurd (left.symm.trans right) different
  · rename_i left right
    subst left
    cases one
    exact (new second (Ne.symm right) two).1
  · rename_i left right
    subst right
    cases two
    exact (new first (Ne.symm left) one).2
  · exact shares first second value different one two

/-- A new entry for an attribute that is not in use shares nothing. -/
theorem Table.Shares.insert_unused {assignment : Table Name Name} {related : Name → Name → Name → Prop}
    (shares : assignment.Shares related) {identifier attr : Name}
    (unused : ∀ other, assignment.get? other ≠ some attr) :
    (assignment.insert identifier attr).Shares related :=
  shares.insert fun other _ found => absurd found (unused other)

namespace GroupDraft

/-- How the members that a draft has matched got their attributes: by name, a bound attribute, which
then remains no longer, or a free one, the name of which is then consumed. -/
structure Pairs (bound free : NamePool) (keyOf : Name → Name) (draft : GroupDraft) : Prop where
  remaining : ∀ key attr, draft.remaining.get? key = some attr → bound.get? key = some attr
  named : ∀ identifier attr, draft.assignment.get? identifier = some attr →
    (bound.get? (keyOf identifier) = some attr ∧ draft.remaining.get? (keyOf identifier) = none) ∨
      (free.get? (keyOf identifier) = some attr ∧ keyOf identifier ∈ draft.consumed)

variable {bound free : NamePool} {keyOf : Name → Name} {draft : GroupDraft}

theorem pairs_start : Pairs bound free keyOf { remaining := bound } where
  remaining := fun _ _ found => found
  named := fun _ _ found => nomatch found

/-- Matching one more member keeps how the others got their attributes. -/
theorem Pairs.take (pairs : Pairs bound free keyOf draft) (identifier : Name) :
    Pairs bound free keyOf (draft.take free keyOf identifier) := by
  unfold GroupDraft.take
  split
  · rename_i attr taken
    refine ⟨fun key other found => ?_, fun other value found => ?_⟩
    · rw [Table.get?_erase] at found
      split at found
      · cases found
      · exact pairs.remaining _ _ found
    · dsimp only at found ⊢
      rw [Table.get?_insert] at found
      rw [Table.get?_erase]
      split at found
      · rename_i same
        subst same
        cases found
        exact .inl ⟨pairs.remaining _ _ taken, if_pos rfl⟩
      · refine (pairs.named other value found).imp_left fun early => ⟨early.1, ?_⟩
        split
        · rfl
        · exact early.2
  · split
    · rename_i attr known
      refine ⟨pairs.remaining, fun other value found => ?_⟩
      dsimp only at found ⊢
      rw [Table.get?_insert] at found
      rw [NameSet.mem_insert]
      split at found
      · rename_i same
        subst same
        cases found
        exact .inr ⟨known, .inl rfl⟩
      · exact (pairs.named other value found).imp_right fun early => ⟨early.1, .inr early.2⟩
    · exact ⟨pairs.remaining, pairs.named⟩

variable (pairs : Pairs bound free keyOf draft) (apart : NamePool.Apart bound free)

include pairs apart

/-- A bound attribute that remains is not in use. -/
theorem Pairs.unused_of_remaining {key attr identifier : Name}
    (remains : draft.remaining.get? key = some attr) : draft.assignment.get? identifier ≠ some attr := by
  intro inUse
  have known := pairs.remaining _ _ remains
  rcases pairs.named identifier attr inUse with ⟨named, gone⟩ | ⟨named, _⟩
  · rw [apart.boundKey named known, remains] at gone
    cases gone
  · exact absurd (Table.mem_values_of_get? named) (apart.disjoint (Table.mem_values_of_get? known))

/-- Matching one more member leaves each bound attribute to one member. -/
theorem Pairs.take_boundOnce (once : draft.assignment.Shares fun _ _ attr => attr ∉ bound.values)
    (identifier : Name) :
    (draft.take free keyOf identifier).assignment.Shares fun _ _ attr => attr ∉ bound.values := by
  unfold GroupDraft.take
  split
  · rename_i attr taken
    exact once.insert_unused fun other => pairs.unused_of_remaining apart taken
  · split
    · rename_i attr known
      have isFree : attr ∉ bound.values :=
        fun isBound => apart.disjoint isBound (Table.mem_values_of_get? known)
      exact once.insert fun _ _ _ => ⟨isFree, isFree⟩
    · exact once

/-- An attribute stands in for two members only if they are looked for under one name and, where each
bound attribute is left to one member, only if it is free. -/
theorem Pairs.shares (once : draft.assignment.Shares fun _ _ attr => attr ∉ bound.values) :
    draft.assignment.Shares fun first second attr =>
      keyOf first = keyOf second ∧ attr ∈ free.values := by
  intro first second attr different one two
  have notBound := once first second attr different one two
  obtain ⟨left, _⟩ := (pairs.named first attr one).resolve_left fun byBound =>
    notBound (Table.mem_values_of_get? byBound.1)
  obtain ⟨right, _⟩ := (pairs.named second attr two).resolve_left fun byBound =>
    notBound (Table.mem_values_of_get? byBound.1)
  exact ⟨apart.freeKey left right, Table.mem_values_of_get? left⟩

end GroupDraft

theorem SidePool.draft_pairs (pool : SidePool) (free : NamePool) (members : List Name) :
    (pool.draft free members).Pairs pool.bound free (pool.lookupKey free) :=
  foldl_invariant _ GroupDraft.pairs_start fun identifier _ _ pairs => pairs.take identifier

theorem SidePool.draft_boundOnce {pool : SidePool} {free : NamePool} (apart : NamePool.Apart pool.bound free)
    (members : List Name) :
    (pool.draft free members).assignment.Shares fun _ _ attr => attr ∉ pool.bound.values := by
  refine (foldl_invariant (fun draft : GroupDraft => draft.Pairs pool.bound free (pool.lookupKey free) ∧
    draft.assignment.Shares fun _ _ attr => attr ∉ pool.bound.values) ⟨GroupDraft.pairs_start, ?_⟩ ?_).2
  · intro _ _ _ _ found
    cases found
  · rintro identifier _ _ ⟨pairs, once⟩
    exact ⟨pairs.take identifier, pairs.take_boundOnce apart once identifier⟩

namespace GroupCandidate

/-- How the members of a candidate got their attributes: by name, or by force a bound attribute that
carries no rename. -/
structure Pairs (pool : SidePool) (free : NamePool) (candidate : GroupCandidate) : Prop where
  each : ∀ identifier attr, candidate.found.assignment.get? identifier = some attr →
    pool.bound.get? (pool.lookupKey free identifier) = some attr ∨
      (free.get? (pool.lookupKey free identifier) = some attr ∧
        pool.lookupKey free identifier ∈ candidate.consumed) ∨
      (attr ∈ pool.bound.values ∧ attr ∉ pool.renamed)
  shares : candidate.found.assignment.Shares fun first second attr =>
    pool.lookupKey free first = pool.lookupKey free second ∧ attr ∈ free.values

end GroupCandidate

namespace SidePool

/-- A completed draft pairs its members by name, or one by force. -/
theorem complete_pairs {pool : SidePool} {free : NamePool} {group : IdGroup} {draft : GroupDraft}
    (pairs : draft.Pairs pool.bound free (pool.lookupKey free)) (apart : NamePool.Apart pool.bound free)
    (once : draft.assignment.Shares fun _ _ attr => attr ∉ pool.bound.values)
    {candidate : GroupCandidate} (formed : (pool.complete group draft).candidate? = some candidate) :
    candidate.Pairs pool free := by
  have named : ∀ identifier attr, draft.assignment.get? identifier = some attr →
      pool.bound.get? (pool.lookupKey free identifier) = some attr ∨
        (free.get? (pool.lookupKey free identifier) = some attr ∧
          pool.lookupKey free identifier ∈ draft.consumed) :=
    fun identifier attr assigned => (pairs.named identifier attr assigned).imp_left And.left
  have shares := pairs.shares apart once
  unfold complete at formed
  split at formed
  · -- every member is matched by name
    split at formed
    · cases formed
      exact ⟨fun identifier attr assigned => (named identifier attr assigned).imp_right .inl, shares⟩
    · cases formed
  · rename_i identifier single
    split at formed
    · -- no bound attribute is left, and the slot of the member stays open
      cases formed
      refine ⟨fun other attr assigned => (named other attr assigned).imp_right fun byFree =>
        .inl ⟨byFree.1, NameSet.mem_insert.mpr (.inr byFree.2)⟩, shares⟩
    · rename_i key attr others left
      split at formed
      · cases formed
      · rename_i plain
        split at formed
        · -- the last bound attribute is taken by force
          rename_i last
          cases formed
          rw [List.isEmpty_iff.mp last] at left
          have remains : draft.remaining.get? key = some attr :=
            Table.get?_eq_some_iff.mpr (by simp [left])
          refine ⟨fun other value assigned => ?_,
            shares.insert_unused fun other => pairs.unused_of_remaining apart remains⟩
          simp only [candidate, Table.get?_insert] at assigned
          split at assigned
          · cases assigned
            exact .inr (.inr ⟨Table.mem_values_of_get? (pairs.remaining _ _ remains), plain⟩)
          · exact (named other value assigned).imp_right .inl
        · cases formed
  · cases formed

/-- Every candidate of a side pairs the members of its group. -/
theorem outcomes_pairs {pool : SidePool} {free : NamePool} (apart : NamePool.Apart pool.bound free)
    {candidate : GroupCandidate} (formed : candidate ∈ (pool.outcomes free).filterMap (·.candidate?)) :
    candidate.Pairs pool free := by
  obtain ⟨outcome, listed, given⟩ := List.mem_filterMap.mp formed
  obtain ⟨⟨group, members⟩, _, rfl⟩ := List.mem_map.mp listed
  exact complete_pairs (pool.draft_pairs free members) apart (draft_boundOnce apart members) given

end SidePool

namespace GroupCandidate

/-- A free attribute whose name is not consumed is not in use. -/
theorem Pairs.unused_of_not_consumed {pool : SidePool} {free : NamePool} {candidate : GroupCandidate}
    (pairs : candidate.Pairs pool free) (apart : NamePool.Apart pool.bound free) {key attr : Name}
    (known : free.get? key = some attr) (left : key ∉ candidate.consumed) (identifier : Name) :
    candidate.found.assignment.get? identifier ≠ some attr := by
  intro inUse
  have notBound : attr ∉ pool.bound.values :=
    fun bound => apart.disjoint bound (Table.mem_values_of_get? known)
  rcases pairs.each identifier attr inUse with bound | ⟨found, consumed⟩ | ⟨bound, _⟩
  · exact notBound (Table.mem_values_of_get? bound)
  · exact left (apart.freeKey found known ▸ consumed)
  · exact notBound bound

/-- Filling the open slot adds at most a free attribute that carries no rename and is not in use. -/
theorem Pairs.fill {pool : SidePool} {free : FreePool} {candidate : GroupCandidate}
    (pairs : candidate.Pairs pool free.names) (apart : NamePool.Apart pool.bound free.names)
    {choice : List GroupCandidate} {missing leftover : Option Name}
    (filling : Filling free choice missing leftover) (listed : candidate ∈ choice) :
    (∀ identifier attr, (candidate.fill missing leftover).assignment.get? identifier = some attr →
      candidate.found.assignment.get? identifier = some attr ∨
        (attr ∈ free.names.values ∧ attr ∉ free.renamed)) ∧
    (candidate.fill missing leftover).assignment.Shares fun first second attr =>
      pool.lookupKey free.names first = pool.lookupKey free.names second ∧ attr ∈ free.names.values := by
  unfold GroupCandidate.fill
  split
  · rename_i slot attr opened
    split
    · obtain ⟨key, known, left⟩ := filling.unused attr rfl
      have unused := pairs.unused_of_not_consumed apart known fun consumed =>
        left (mem_consumedBy_iff.mpr ⟨candidate, listed, consumed⟩)
      refine ⟨fun identifier value assigned => ?_, pairs.shares.insert_unused unused⟩
      rw [Table.get?_insert] at assigned
      split at assigned
      · cases assigned
        exact .inr ⟨Table.mem_values_of_get? known, filling.plain candidate listed slot opened attr rfl⟩
      · exact .inl assigned
    · exact ⟨fun _ _ => .inl, pairs.shares⟩
  · exact ⟨fun _ _ => .inl, pairs.shares⟩

end GroupCandidate

/-- Whether an identifier attribute of a class answers to a name in lower case: to its own name, and to
that of the class if it is called id. -/
def AnswersTo (className identifier key : Name) : Prop :=
  key = Text.lowercase identifier ∨ (Text.lowercase identifier = "id" ∧ key = Text.lowercase className)

/-- Whether an identifier attribute of a class is called by a name in lower case: by its own name or, if it
is called id and no attribute of the class has that name, by the name of the class. -/
def Resolved.Class.IsCalled (cls : Class) (identifier key : Name) : Prop :=
  key = Text.lowercase identifier ∨ (Text.lowercase identifier = "id" ∧ key = Text.lowercase cls.name ∧
    ∀ attr ∈ cls.attributes, Text.lowercase attr.name ≠ Text.lowercase cls.name)

namespace Resolved.Class.IsCalled

variable {cls : Class} {first second key : Name}

theorem answersTo (called : cls.IsCalled first key) : AnswersTo cls.name first key :=
  called.imp_right fun byClass => ⟨byClass.1, byClass.2.1⟩

/-- Attributes of a class that are called by one name have one name up to case. -/
theorem lowercase_eq (one : cls.IsCalled first key) (two : cls.IsCalled second key)
    (firstOwned : first ∈ cls.attributes.map (·.name)) (secondOwned : second ∈ cls.attributes.map (·.name)) :
    Text.lowercase first = Text.lowercase second := by
  obtain ⟨firstAttr, firstListed, rfl⟩ := List.mem_map.mp firstOwned
  obtain ⟨secondAttr, secondListed, rfl⟩ := List.mem_map.mp secondOwned
  obtain left | ⟨left, byClass, foreign⟩ := one
  · obtain right | ⟨_, byClass, foreign⟩ := two
    · exact left.symm.trans right
    · exact absurd (left.symm.trans byClass) (foreign firstAttr firstListed)
  · obtain right | ⟨right, _, _⟩ := two
    · exact absurd (right.symm.trans byClass) (foreign secondAttr secondListed)
    · exact left.trans right.symm

end Resolved.Class.IsCalled

namespace SidePool

theorem isCalled_lookupKey (pool : SidePool) (free : NamePool) (identifier : Name) :
    pool.referred.IsCalled identifier (pool.lookupKey free identifier) := by
  unfold lookupKey
  split
  · rename_i byClass
    obtain ⟨named, id⟩ := byClass
    simp only [namesClassById, Bool.and_eq_true, Bool.not_eq_eq_eq_not, Bool.not_true] at named
    exact .inr ⟨id, rfl, fun attr listed => by simpa using List.any_eq_false.mp named.2 attr listed⟩
  · exact .inl rfl

end SidePool

/-- How a match pairs the members of its group on one side: a bound attribute answers to its rename on
the side and a free one to its rename on every side, where they carry one, and an attribute that two
members have is free, and they have one name up to case. -/
structure SideMatch.Pairs (source : SourceSide) (free : List Name) (general : Table Name Name)
    (found : SideMatch) : Prop where
  each : ∀ identifier attr, found.assignment.get? identifier = some attr →
    (attr ∈ source.bound ∧ ∀ name, source.renames.get? attr = some name →
      AnswersTo source.referred.name identifier (Text.lowercase name)) ∨
    (attr ∈ free ∧ ∀ name, general.get? attr = some name →
      AnswersTo source.referred.name identifier (Text.lowercase name))
  shares : found.assignment.Shares fun first second attr => attr ∈ free ∧
    (first ∈ source.referred.attributes.map (·.name) →
      second ∈ source.referred.attributes.map (·.name) → Text.lowercase first = Text.lowercase second)

theorem SideMatch.Pairs.lowercase_eq {source : SourceSide} {free : List Name} {general : Table Name Name}
    {found : SideMatch} (pairs : found.Pairs source free general) {first second attr : Name}
    (one : found.assignment.get? first = some attr) (two : found.assignment.get? second = some attr)
    (firstOwned : first ∈ source.referred.attributes.map (·.name))
    (secondOwned : second ∈ source.referred.attributes.map (·.name)) :
    Text.lowercase first = Text.lowercase second := by
  by_cases same : first = second
  · rw [same]
  · exact (pairs.shares first second attr same one two).2 firstOwned secondOwned

section Matching

variable {source : SourceSide} {pool : SidePool} (pooled : source.pool = .ok pool) {free : List Name}
  {general : Table Name Name} {names : NamePool} (named : NamePool.ofAttributes free general = .ok names)
  (disjoint : ∀ attr ∈ source.bound, attr ∉ free)

include pooled named disjoint

theorem SourceSide.apart_of_pool : NamePool.Apart pool.bound names := by
  obtain ⟨bound, bounded, same⟩ := bind_eq_ok_iff.mp pooled
  cases same
  refine ⟨fun one two => ?_, fun one two => ?_, fun {attr} isBound isFree => ?_⟩
  · rw [← ((NamePool.get?_ofAttributes bounded).mp one).2, ((NamePool.get?_ofAttributes bounded).mp two).2]
  · rw [← ((NamePool.get?_ofAttributes named).mp one).2, ((NamePool.get?_ofAttributes named).mp two).2]
  · rw [NamePool.values_ofAttributes bounded] at isBound
    rw [NamePool.values_ofAttributes named] at isFree
    exact disjoint attr isBound isFree

/-- In a candidate with its slot filled an attribute that carries a rename stands in for a member that is
called by it. -/
theorem GroupCandidate.Pairs.isCalled {candidate : GroupCandidate} (pairs : candidate.Pairs pool names)
    {choice : List GroupCandidate} {missing leftover : Option Name}
    (filling : Filling ⟨names, general.keys⟩ choice missing leftover) (listed : candidate ∈ choice)
    {identifier attr : Name} (assigned : (candidate.fill missing leftover).assignment.get? identifier = some attr) :
    (attr ∈ source.bound ∧ ∀ name, source.renames.get? attr = some name →
      source.referred.IsCalled identifier (Text.lowercase name)) ∨
    (attr ∈ free ∧ ∀ name, general.get? attr = some name →
      source.referred.IsCalled identifier (Text.lowercase name)) := by
  obtain ⟨added, _⟩ := pairs.fill (SourceSide.apart_of_pool pooled named disjoint) filling listed
  obtain ⟨bound, bounded, same⟩ := bind_eq_ok_iff.mp pooled
  cases same
  have called : ∀ (renames : Table Name Name) (identifier attr : Name),
      NamePool.keyOf renames attr =
        SidePool.lookupKey ⟨source.side, source.referred, bound, source.renames.keys⟩ names identifier →
      ∀ name, renames.get? attr = some name → source.referred.IsCalled identifier (Text.lowercase name) := by
    intro renames identifier attr goesBy name renamed
    rw [NamePool.keyOf, renamed, Option.getD_some] at goesBy
    rw [goesBy]
    exact SidePool.isCalled_lookupKey ..
  have unnamed : ∀ {renames : Table Name Name} {attr name : Name},
      attr ∉ renames.keys → renames.get? attr ≠ some name :=
    fun plain renamed => plain (Table.mem_keys_of_get? renamed)
  rcases added identifier attr assigned with early | ⟨isFree, plain⟩
  · rcases pairs.each identifier attr early with found | ⟨found, _⟩ | ⟨isBound, plain⟩
    · obtain ⟨isBound, goesBy⟩ := (NamePool.get?_ofAttributes bounded).mp found
      exact .inl ⟨isBound, called _ _ _ goesBy⟩
    · obtain ⟨isFree, goesBy⟩ := (NamePool.get?_ofAttributes named).mp found
      exact .inr ⟨isFree, called _ _ _ goesBy⟩
    · rw [NamePool.values_ofAttributes bounded] at isBound
      exact .inl ⟨isBound, fun name renamed => absurd renamed (unnamed plain)⟩
  · rw [NamePool.values_ofAttributes named] at isFree
    exact .inr ⟨isFree, fun name renamed => absurd renamed (unnamed plain)⟩

/-- A candidate with its slot filled pairs the members of its group. -/
theorem GroupCandidate.Pairs.side {candidate : GroupCandidate} (pairs : candidate.Pairs pool names)
    {choice : List GroupCandidate} {missing leftover : Option Name}
    (filling : Filling ⟨names, general.keys⟩ choice missing leftover) (listed : candidate ∈ choice) :
    (candidate.fill missing leftover).Pairs source free general := by
  obtain ⟨_, shares⟩ := pairs.fill (SourceSide.apart_of_pool pooled named disjoint) filling listed
  refine ⟨fun identifier attr assigned => ?_, fun first second attr different one two => ?_⟩
  · exact (pairs.isCalled pooled named disjoint filling listed assigned).imp
      (And.imp_right fun called name renamed => (called name renamed).answersTo)
      (And.imp_right fun called name renamed => (called name renamed).answersTo)
  · obtain ⟨bound, _, same⟩ := bind_eq_ok_iff.mp pooled
    cases same
    obtain ⟨oneKey, isFree⟩ := shares first second attr different one two
    rw [NamePool.values_ofAttributes named] at isFree
    have called := SidePool.isCalled_lookupKey ⟨source.side, source.referred, bound, source.renames.keys⟩
      names first
    rw [oneKey] at called
    exact ⟨isFree, called.lowercase_eq (SidePool.isCalled_lookupKey ..)⟩

end Matching

/-- A match of a partition pairs the members of its groups on every side. -/
theorem Partition.match?_pairs {partition : Partition} {general : Table Name Name} {found : List SideMatch}
    (distinct : ∀ source ∈ partition.sources, ∀ group members,
      source.referred.identifiers.members? group = some members → members.Nodup)
    (disjoint : ∀ source ∈ partition.sources, ∀ attr ∈ source.bound, attr ∉ partition.free)
    (success : partition.match? general = .ok found) :
    List.Forall₂ (fun source found => SideMatch.Pairs source partition.free general found)
      partition.sources found := by
  obtain ⟨names, choice, missing, leftover, named, chosen, filling, rfl⟩ := match?_eq_fill distinct success
  rw [List.forall₂_map_right_iff]
  refine forall₂_imp_of_mem chosen ?_
  rintro source present candidate listed ⟨pool, pooled, formed, _⟩
  have apart := SourceSide.apart_of_pool pooled named (disjoint source present)
  have pairs := SidePool.outcomes_pairs apart formed
  exact pairs.side pooled named (disjoint source present) filling listed

/-- No attribute of a partition is both bound and free. -/
theorem Partition.Divides.disjoint {classes : Table Name Resolved.Class}
    {relationships : Table Rnum Resolved.Relationship} {cls : Resolved.Class} {layout : Layout} {rnum : Rnum}
    {attrs : List Name} {partition : Partition}
    (divides : Divides classes relationships cls layout rnum attrs partition) {source : SourceSide}
    (listed : source ∈ partition.sources) {attr : Name} (bound : attr ∈ source.bound) :
    attr ∉ partition.free := by
  rw [divides.free, List.mem_filter, List.isEmpty_iff]
  exact fun free => (divides.bound source listed attr bound).2 free.2

section Partitions

variable {classes : Table Name Resolved.Class} {relationships : Table Rnum Resolved.Relationship}
  (sound : WellFormed relationships classes) {cls : Resolved.Class} {layout : Layout} {rnum : Rnum}

include sound

/-- A match of the attributes of a class covers and pairs the members of an identifier group on every side. -/
theorem Partition.match?_sides {attrs : List Name} {partition : Partition}
    (divided : ofAttributes classes relationships cls layout rnum attrs = .ok partition)
    {general : Table Name Name} {sides : List SideMatch} (matching : partition.match? general = .ok sides) :
    List.Forall₂ (fun source side => classes.get? side.referred = some source.referred ∧
      SideMatch.Covers source partition.free side ∧ SideMatch.Pairs source partition.free general side)
      partition.sources sides := by
  have divides := ofAttributes_divides divided
  have referred : ∀ source ∈ partition.sources,
      classes.get? source.referred.name = some source.referred := by
    intro source listed
    obtain ⟨_, _, far, _, ends⟩ := divides.ends
    obtain ⟨_, _, _, known⟩ := exists_left_of_forall₂ ends listed
    rwa [sound.className _ _ known]
  have distinct : ∀ source ∈ partition.sources, ∀ group members,
      source.referred.identifiers.members? group = some members → members.Nodup :=
    fun source listed => sound.membersNodup _ _ (referred source listed)
  have covers := (match?_covers distinct matching).1
  have pairs := match?_pairs distinct (fun _ listed _ => divides.disjoint listed) matching
  refine forall₂_imp_of_mem (forall₂_and covers pairs) ?_
  rintro source listed side _ ⟨covered, paired⟩
  exact ⟨covered.referred ▸ referred source listed, covered, paired⟩

/-- A match of a class comes of a partition of its attributes. -/
theorem ClassMatches.exists_partition {found : ClassMatches}
    (matched : ofClass classes relationships cls = .ok found) {sides : List SideMatch}
    (present : (rnum, sides) ∈ found.references ∨ (rnum, sides) ∈ found.choices) :
    ∃ layout attrs partition, Layout.ofClass cls = .ok layout ∧
      Partition.ofAttributes classes relationships cls layout rnum attrs = .ok partition ∧
      List.Forall₂ (fun source side => classes.get? side.referred = some source.referred ∧
        SideMatch.Covers source partition.free side ∧
        SideMatch.Pairs source partition.free (layout.renamesOver rnum) side) partition.sources sides := by
  obtain ⟨layout, attrs, laid, ran⟩ := exists_matchOver_of_ofClass matched present
  obtain ⟨partition, divided, matching, _⟩ := matchOver_eq_ok_iff.mp ran
  exact ⟨layout, attrs, partition, laid, divided, Partition.match?_sides sound divided matching⟩

end Partitions

end ClassModel
