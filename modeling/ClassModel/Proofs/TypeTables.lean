import ClassModel.Proofs.TypeAssignments
import Mathlib.Data.List.Nodup

/-! # What a type table records

A type table records the types entered so far: each scalar that one of them mentions, each union once,
and as alias of a union the one name that its uses give it. Types can be entered in any order, as long
as no union is given two names.
-/

namespace ClassModel

namespace TypeResolution

/-- Whether two uses do not give one union two names. -/
def Compatible (first second : TypeResolution) : Prop :=
  ∀ members, first.type = .union members → second.type = .union members →
    ∀ known new, first.aliasName = some known → second.aliasName = some new → known = new

end TypeResolution

namespace TypeTable

/-- What a table records of the types entered. -/
structure Records (uses : List TypeResolution) (table : TypeTable) : Prop where
  scalars : ∀ name, name ∈ table.scalars ↔ ∃ use ∈ uses, name ∈ use.type.names
  distinct : (table.unions.map (·.members)).Nodup
  unions : ∀ members, members ∈ table.unions.map (·.members) ↔ ∃ use ∈ uses, use.type = .union members
  aliases : ∀ union ∈ table.unions, ∀ name, union.aliasName = some name ↔
    ∃ use ∈ uses, use.type = .union union.members ∧ use.aliasName = some name

section Entering

theorem mem_addScalar_iff {table : TypeTable} {name other : Name} :
    other ∈ (table.addScalar name).scalars ↔ other ∈ table.scalars ∨ other = name := by
  unfold addScalar containsScalar
  split
  · rename_i known
    rw [List.contains_iff_mem] at known
    exact ⟨.inl, fun present => present.elim id fun same => same ▸ known⟩
  · simp

@[simp] theorem unions_addScalar (table : TypeTable) (name : Name) :
    (table.addScalar name).unions = table.unions := by
  unfold addScalar
  split <;> rfl

theorem mem_foldl_addScalar_iff {names : List Name} {table : TypeTable} {other : Name} :
    other ∈ (names.foldl addScalar table).scalars ↔ other ∈ table.scalars ∨ other ∈ names := by
  induction names generalizing table with
  | nil => simp
  | cons name rest ih => rw [List.foldl_cons, ih, mem_addScalar_iff, List.mem_cons, or_assoc]

/-- Two aliases join if they are not different names. -/
theorem joinAlias_eq_ok_iff {known new joined : Option Name} :
    joinAlias known new = .ok joined ↔
      (∀ first second, known = some first → new = some second → first = second) ∧
        known.or new = joined := by
  cases known <;> cases new <;> simp only [joinAlias, Except.ok.injEq, Option.or] <;> try simp
  split <;> simp_all

/-- A union is entered if the name it is given is not different from its alias. -/
theorem exists_enterUnion_iff {members : List Name} {aliasName : Option Name} {unions : List UnionType}
    (distinct : (unions.map (·.members)).Nodup) :
    (∃ result, enterUnion members aliasName unions = .ok result) ↔
      ∀ union ∈ unions, union.members = members → ∀ known new, union.aliasName = some known →
        aliasName = some new → known = new := by
  induction unions with
  | nil => simp [enterUnion]
  | cons first rest ih =>
    obtain ⟨absent, distinct⟩ := List.nodup_cons.mp distinct
    rw [enterUnion, List.forall_mem_cons]
    split
    · rename_i same
      have other : ∀ union ∈ rest, union.members ≠ members := fun union present equal =>
        absent (List.mem_map.mpr ⟨union, present, equal.trans same.symm⟩)
      simp only [map_eq_ok_iff, joinAlias_eq_ok_iff]
      constructor
      · rintro ⟨_, _, ⟨agree, _⟩, _⟩
        exact ⟨fun _ => agree, fun union present named => absurd named (other union present)⟩
      · rintro ⟨agree, _⟩
        exact ⟨_, _, ⟨agree same, rfl⟩, rfl⟩
    · rename_i different
      rw [← ih distinct]
      simp only [map_eq_ok_iff]
      constructor
      · rintro ⟨_, result, ran, _⟩
        exact ⟨fun same => absurd same different, result, ran⟩
      · rintro ⟨_, result, ran⟩
        exact ⟨_, result, ran, rfl⟩

/-- Of unions with distinct member lists only one has a given list. -/
theorem one_of_distinct {unions : List UnionType} (distinct : (unions.map (·.members)).Nodup)
    {union : UnionType} (present : union ∈ unions) {holds : UnionType → Prop} :
    (∃ old ∈ unions, old.members = union.members ∧ holds old) ↔ holds union := by
  constructor
  · rintro ⟨old, listed, same, held⟩
    rwa [← List.inj_on_of_nodup_map distinct listed present same]
  · exact fun held => ⟨union, present, rfl, held⟩

section Union

variable {members : List Name} {aliasName : Option Name} {unions result : List UnionType}
  (entered : enterUnion members aliasName unions = .ok result)

include entered

/-- Entering a union adds its member list unless it is there. -/
theorem map_members_of_enterUnion : result.map (·.members) =
    if members ∈ unions.map (·.members) then unions.map (·.members)
    else unions.map (·.members) ++ [members] := by
  induction unions generalizing result with
  | nil =>
    cases entered
    rfl
  | cons first rest ih =>
    rw [enterUnion] at entered
    split at entered
    · rename_i same
      obtain ⟨joined, _, rfl⟩ := map_eq_ok_iff.mp entered
      simp [same]
    · rename_i different
      obtain ⟨later, ran, rfl⟩ := map_eq_ok_iff.mp entered
      rw [List.map_cons, ih ran, List.map_cons]
      simp only [List.mem_cons, Ne.symm different, false_or]
      split <;> rfl

theorem mem_map_members_of_enterUnion {other : List Name} :
    other ∈ result.map (·.members) ↔ other ∈ unions.map (·.members) ∨ other = members := by
  rw [map_members_of_enterUnion entered]
  split
  · rename_i known
    exact ⟨.inl, fun present => present.elim id fun same => same ▸ known⟩
  · rw [List.mem_append, List.mem_singleton]

variable (distinct : (unions.map (·.members)).Nodup)

include distinct

theorem nodup_of_enterUnion : (result.map (·.members)).Nodup := by
  rw [map_members_of_enterUnion entered]
  split
  · exact distinct
  · rename_i absent
    exact distinct.append (List.nodup_singleton _) (List.disjoint_singleton.mpr absent)

/-- Entering a union adds its alias to the one that the union has. -/
theorem aliases_of_enterUnion {union : UnionType} (present : union ∈ result) (name : Name) :
    union.aliasName = some name ↔
      (∃ old ∈ unions, old.members = union.members ∧ old.aliasName = some name) ∨
        (union.members = members ∧ aliasName = some name) := by
  induction unions generalizing result with
  | nil =>
    cases entered
    cases List.mem_singleton.mp present
    simp
  | cons first rest ih =>
    have whole := distinct
    obtain ⟨absent, distinct⟩ := List.nodup_cons.mp distinct
    rw [enterUnion] at entered
    split at entered
    · rename_i same
      obtain ⟨joined, joins, rfl⟩ := map_eq_ok_iff.mp entered
      obtain ⟨agree, rfl⟩ := joinAlias_eq_ok_iff.mp joins
      subst same
      rcases List.mem_cons.mp present with rfl | later
      · rw [one_of_distinct whole (List.mem_cons_self ..), Option.or_eq_some_iff]
        constructor
        · rintro (known | ⟨_, new⟩)
          · exact .inl known
          · exact .inr ⟨rfl, new⟩
        · rintro (known | ⟨_, new⟩)
          · exact .inl known
          · cases known : first.aliasName with
            | none => exact .inr ⟨rfl, new⟩
            | some held => exact .inl (by rw [agree held name known new])
      · have other : union.members ≠ first.members := fun equal =>
          absent (List.mem_map.mpr ⟨union, later, equal⟩)
        rw [one_of_distinct whole (List.mem_cons_of_mem _ later)]
        simp [other]
    · rename_i different
      obtain ⟨later, ran, rfl⟩ := map_eq_ok_iff.mp entered
      rcases List.mem_cons.mp present with rfl | later
      · rw [one_of_distinct whole (List.mem_cons_self ..)]
        simp [different]
      · have other : first.members ≠ union.members := by
          intro equal
          rcases (mem_map_members_of_enterUnion ran).mp (List.mem_map_of_mem later) with known | new
          · exact absent (List.mem_map.mpr (by simpa [equal] using known))
          · exact different (equal.trans new)
        rw [ih ran distinct later, List.exists_mem_cons_iff]
        simp [other]

end Union

end Entering

section Recording

theorem records_start : Records [] {} :=
  ⟨by simp, by simp, by simp, by simp⟩

theorem Records.addScalar {uses : List TypeResolution} {table : TypeTable} (records : Records uses table)
    {resolution : TypeResolution} {only : Name} (single : resolution.type = .scalar only) :
    Records (uses ++ [resolution]) (table.addScalar only) := by
  have grown : ∀ holds : TypeResolution → Prop,
      (∃ use ∈ uses ++ [resolution], holds use) ↔ (∃ use ∈ uses, holds use) ∨ holds resolution := by
    intro holds
    simp only [List.mem_append, List.mem_singleton, or_and_right, exists_or, exists_eq_left]
  refine ⟨fun name => ?_, ?_, fun members => ?_, fun union listed name => ?_⟩
  · rw [mem_addScalar_iff, records.scalars, grown, single]
    simp [AttributeType.names]
  · rw [unions_addScalar]
    exact records.distinct
  · rw [unions_addScalar, records.unions, grown, single]
    simp
  · rw [unions_addScalar] at listed
    rw [records.aliases union listed, grown, single]
    simp

theorem Records.addUnion {uses : List TypeResolution} {table : TypeTable} (records : Records uses table)
    {resolution : TypeResolution} {members : List Name} (several : resolution.type = .union members)
    {unions : List UnionType}
    (entered : enterUnion members resolution.aliasName table.unions = .ok unions) :
    Records (uses ++ [resolution]) ⟨(members.foldl TypeTable.addScalar table).scalars, unions⟩ := by
  have grown : ∀ holds : TypeResolution → Prop,
      (∃ use ∈ uses ++ [resolution], holds use) ↔ (∃ use ∈ uses, holds use) ∨ holds resolution := by
    intro holds
    simp only [List.mem_append, List.mem_singleton, or_and_right, exists_or, exists_eq_left]
  refine ⟨fun name => ?_, nodup_of_enterUnion entered records.distinct, fun other => ?_,
    fun union present name => ?_⟩
  · rw [mem_foldl_addScalar_iff, records.scalars, grown, several]
    rfl
  · rw [mem_map_members_of_enterUnion entered, records.unions, grown, several,
      AttributeType.union.injEq, eq_comm (a := other)]
  · rw [aliases_of_enterUnion entered records.distinct present, grown, several, AttributeType.union.injEq, eq_comm (a := members)]
    refine or_congr_left ?_
    -- an alias held before is that of an earlier use, and only a listed union has one
    constructor
    · rintro ⟨old, held, same, named⟩
      rw [← same]
      exact (records.aliases old held name).mp named
    · rintro ⟨use, listed, typed, named⟩
      obtain ⟨old, held, same⟩ := List.mem_map.mp ((records.unions _).mpr ⟨use, listed, typed⟩)
      exact ⟨old, held, same, (records.aliases old held name).mpr ⟨use, listed, same ▸ typed, named⟩⟩

/-- A type is entered if it is compatible with those before it, and is recorded from then on. -/
theorem Records.enterType {uses : List TypeResolution} {table : TypeTable} (records : Records uses table)
    (resolution : TypeResolution) :
    ((∃ next, Typing.enterType table resolution = .ok next) ↔
        ∀ use ∈ uses, use.Compatible resolution) ∧
      ∀ next, Typing.enterType table resolution = .ok next → Records (uses ++ [resolution]) next := by
  unfold Typing.enterType
  cases typed : resolution.type with
  | scalar only =>
    refine ⟨⟨fun _ use _ members _ several => ?_, fun _ => ⟨_, rfl⟩⟩, ?_⟩
    · rw [typed] at several
      cases several
    · rintro _ ⟨⟩
      exact records.addScalar typed
  | union members =>
    simp only [TypeTable.addUnion, mapError_eq_ok_iff, map_eq_ok_iff]
    constructor
    · have entered : (∃ next unions, enterUnion members resolution.aliasName table.unions = .ok unions ∧
          TypeTable.mk (members.foldl TypeTable.addScalar table).scalars unions = next) ↔
          ∃ unions, enterUnion members resolution.aliasName table.unions = .ok unions :=
        ⟨fun ⟨_, unions, ran, _⟩ => ⟨unions, ran⟩, fun ⟨unions, ran⟩ => ⟨_, unions, ran, rfl⟩⟩
      rw [entered, exists_enterUnion_iff records.distinct]
      constructor
      · intro agree use listed other first second known new earlier later
        rw [typed] at second
        cases second
        obtain ⟨union, held, same⟩ := List.mem_map.mp ((records.unions members).mpr ⟨use, listed, first⟩)
        refine agree union held same known new ?_ later
        exact (records.aliases union held known).mpr ⟨use, listed, same ▸ first, earlier⟩
      · rintro compatible union held rfl known new earlier later
        obtain ⟨use, listed, same, named⟩ := (records.aliases union held known).mp earlier
        exact compatible use listed _ same typed known new named later
    · rintro _ ⟨unions, entered, rfl⟩
      exact records.addUnion typed entered

end Recording

end TypeTable

namespace TypeResolution

theorem Compatible.refl (resolution : TypeResolution) : resolution.Compatible resolution := by
  intro _ _ _ known new first second
  rw [first] at second
  exact Option.some.inj second

theorem Compatible.symm {first second : TypeResolution} (compatible : first.Compatible second) :
    second.Compatible first :=
  fun members left right known new earlier later =>
    (compatible members right left new known later earlier).symm

end TypeResolution

namespace Typing

/-- The types in use make a table exactly if they are compatible, and the table records them. -/
theorem typeTable_spec {typing : Typing} {classes : List Resolved.Class} :
    ((∃ types, typing.typeTable classes = .ok types) ↔
        ∀ first ∈ typing.uses classes, ∀ second ∈ typing.uses classes, first.Compatible second) ∧
      ∀ types, typing.typeTable classes = .ok types → types.Records (typing.uses classes) := by
  unfold typeTable
  generalize typing.uses classes = uses
  have runs := exists_foldlM_eq_ok_iff uses TypeTable.Records
    (fun done use => ∀ other ∈ done, other.Compatible use) TypeTable.records_start
    (fun done use table records => (records.enterType use).1)
    fun done use table next records => (records.enterType use).2 next
  constructor
  · rw [runs]
    constructor
    · intro fit first firstUsed second secondUsed
      obtain ⟨before, after, rfl⟩ := List.append_of_mem secondUsed
      rcases List.mem_append.mp firstUsed with early | later
      · exact fit before second after rfl first early
      · rcases List.mem_cons.mp later with rfl | later
        · exact .refl _
        · obtain ⟨between, rest, rfl⟩ := List.append_of_mem later
          refine (fit (before ++ second :: between) first rest (by simp) second ?_).symm
          simp
    · rintro compatible before use after rfl other listed
      exact compatible other (by simp [List.mem_append.mp listed |>.resolve_left List.not_mem_nil])
        use (by simp)
  · intro types ran
    exact foldlM_tracks TypeTable.Records ran TypeTable.records_start
      fun done use table next records => (records.enterType use).2 next

end Typing

end ClassModel
