import ClassModel.Analysis.Ordinals
import ClassModel.Proofs.Tables

/-! # What the ordinal table holds

The table holds what is known of every ordinal relationship whose class there is, and nothing else, in the
order of the relationships. There is none if some relationship comes to an error.
-/

namespace ClassModel

namespace OrdinalInfo

variable {classes : Table Name Resolved.Class} {relationship : Resolved.Relationship}

/-- What comes of a relationship, if it is ordinal and its class is there. -/
def outcome? (classes : Table Name Resolved.Class) (relationship : Resolved.Relationship) :
    Option (Except AnalysisError OrdinalInfo) :=
  if relationship.isOrdinal then (classOf? classes relationship).map (ofClass relationship) else none

theorem enter_eq (known : Table Rnum OrdinalInfo) :
    enter classes known relationship =
      match outcome? classes relationship with
      | none => .ok known
      | some outcome => outcome.map (known.insert relationship.rnum) := by
  unfold enter outcome?
  cases relationship.isOrdinal with
  | false => rfl
  | true => cases classOf? classes relationship <;> rfl

/-- Entering a relationship fails as its outcome does. -/
theorem failure?_enter (known : Table Rnum OrdinalInfo) (relationship : Resolved.Relationship) :
    failure? (enter classes known relationship) = (outcome? classes relationship).bind failure? := by
  rw [enter_eq]
  cases outcome? classes relationship with
  | none => rfl
  | some outcome => cases outcome <;> rfl

/-- The entry of a relationship, if something comes of it. -/
def entered? (classes : Table Name Resolved.Class) (relationship : Resolved.Relationship) :
    Option (Rnum × OrdinalInfo) :=
  ((outcome? classes relationship).bind (·.toOption)).map (relationship.rnum, ·)

theorem entered?_eq_some_iff {entry : Rnum × OrdinalInfo} :
    entered? classes relationship = some entry ↔
      entry.1 = relationship.rnum ∧ outcome? classes relationship = some (.ok entry.2) := by
  simp only [entered?, Option.map_eq_some_iff, Option.bind_eq_some_iff, toOption_eq_some_iff]
  constructor
  · rintro ⟨info, ⟨_, found, rfl⟩, rfl⟩
    exact ⟨rfl, found⟩
  · rintro ⟨numbered, found⟩
    exact ⟨entry.2, ⟨_, found, rfl⟩, by rw [← numbered]⟩

/-- Entering a relationship whose number is new adds its entry to the end. -/
theorem entries_enter {known next : Table Rnum OrdinalInfo} (ran : enter classes known relationship = .ok next)
    (fresh : known.get? relationship.rnum = none) :
    next.entries = known.entries ++ (entered? classes relationship).toList := by
  rw [enter_eq] at ran
  unfold entered?
  cases found : outcome? classes relationship with
  | none =>
    rw [found] at ran
    cases ran
    simp
  | some outcome =>
    rw [found] at ran
    obtain ⟨info, rfl, rfl⟩ := map_eq_ok_iff.mp ran
    rw [Table.entries_insert_of_absent fresh]
    rfl

/-- What a table holds once some relationships are entered, if their numbers differ. -/
def Holds (classes : Table Name Resolved.Class) (done : List Resolved.Relationship)
    (known : Table Rnum OrdinalInfo) : Prop :=
  (done.map (·.rnum)).Nodup → known.entries = done.filterMap (entered? classes)

theorem Holds.enter {done : List Resolved.Relationship} {known next : Table Rnum OrdinalInfo}
    (holds : Holds classes done known) (ran : enter classes known relationship = .ok next) :
    Holds classes (done ++ [relationship]) next := by
  intro distinct
  rw [List.map_append, List.nodup_append] at distinct
  obtain ⟨earlier, _, apart⟩ := distinct
  have fresh : known.get? relationship.rnum = none := by
    refine Option.eq_none_iff_forall_ne_some.mpr fun info held => ?_
    rw [Table.get?_eq_some_iff, holds earlier] at held
    obtain ⟨other, listed, entered⟩ := List.mem_filterMap.mp held
    exact apart _ (List.mem_map_of_mem listed) _ (List.mem_singleton_self _)
      (entered?_eq_some_iff.mp entered).1.symm
  rw [entries_enter ran fresh, holds earlier, List.filterMap_append]
  cases entered : entered? classes relationship <;> simp [entered]

end OrdinalInfo

section Table

variable {relationships : Table Rnum Resolved.Relationship} {classes : Table Name Resolved.Class}

/-- There is no ordinal table if some relationship comes to an error, and the error is that of the first. -/
theorem failure?_ordinalTable (relationships : Table Rnum Resolved.Relationship)
    (classes : Table Name Resolved.Class) :
    failure? (ordinalTable relationships classes) =
      relationships.values.findSome? fun relationship =>
        (OrdinalInfo.outcome? classes relationship).bind failure? :=
  failure?_foldlM OrdinalInfo.failure?_enter _ _

/-- There is an ordinal table if no relationship comes to an error. -/
theorem exists_ordinalTable_iff :
    (∃ known, ordinalTable relationships classes = .ok known) ↔
      ∀ relationship ∈ relationships.values, ∀ outcome,
        OrdinalInfo.outcome? classes relationship = some outcome → ∃ info, outcome = .ok info := by
  rw [← failure?_eq_none_iff, failure?_ordinalTable, List.findSome?_eq_none_iff]
  simp only [Option.bind_eq_none_iff, failure?_eq_none_iff]

variable (numbered : ∀ rnum relationship, relationships.get? rnum = some relationship → relationship.rnum = rnum)

include numbered

/-- Where relationships stand under their own numbers, the table lists the entries of all of them. -/
theorem entries_ordinalTable {known : Table Rnum OrdinalInfo}
    (success : ordinalTable relationships classes = .ok known) :
    known.entries = relationships.values.filterMap (OrdinalInfo.entered? classes) := by
  have distinct : (relationships.values.map (·.rnum)).Nodup := by
    rw [Table.map_values_eq_keys numbered]
    exact relationships.keys_nodup
  have start : OrdinalInfo.Holds classes [] .empty := fun _ => rfl
  have holds := foldlM_tracks (OrdinalInfo.Holds classes) success start
    fun _ _ _ _ holds ran => holds.enter ran
  exact holds distinct

/-- Where relationships stand under their own numbers, the table holds the outcome of each. -/
theorem get?_ordinalTable {known : Table Rnum OrdinalInfo}
    (success : ordinalTable relationships classes = .ok known) {rnum : Rnum} {info : OrdinalInfo} :
    known.get? rnum = some info ↔ ∃ relationship, relationships.get? rnum = some relationship ∧
      OrdinalInfo.outcome? classes relationship = some (.ok info) := by
  rw [Table.get?_eq_some_iff, entries_ordinalTable numbered success, List.mem_filterMap]
  simp only [OrdinalInfo.entered?_eq_some_iff, Table.mem_values_iff]
  constructor
  · rintro ⟨relationship, ⟨number, held⟩, rfl, outcome⟩
    exact ⟨relationship, numbered _ _ held ▸ held, outcome⟩
  · rintro ⟨relationship, held, outcome⟩
    exact ⟨relationship, ⟨rnum, held⟩, (numbered _ _ held).symm, outcome⟩

end Table

end ClassModel
