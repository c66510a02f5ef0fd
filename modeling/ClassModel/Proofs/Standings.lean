import Mathlib.Data.List.Induction
import ClassModel.Analysis.Matching

/-! # The best of several verdicts

Choices are compared one after the other. Whoever forces fewer attributes than the leaders takes their
place alone, whoever forces as many joins them. So after any number of choices the leaders are those that
force as few attributes as any, in order, and the best of all is given if nothing else forces as few.
-/

namespace ClassModel

namespace Verdict

/-- How many attributes a fitting choice forces. -/
def forced? : Verdict → Option Nat
  | .fits forced _ => some forced
  | _ => none

/-- The match of a fitting choice that forces so many attributes. -/
def foundWith? (forced : Nat) : Verdict → Option (List SideMatch)
  | .fits count found => if count = forced then some found else none
  | _ => none

theorem forced?_eq_some_iff {forced : Nat} {verdict : Verdict} :
    verdict.forced? = some forced ↔ ∃ found, verdict = .fits forced found := by
  cases verdict <;> simp [forced?]

theorem foundWith?_eq_some_iff {forced : Nat} {verdict : Verdict} {found : List SideMatch} :
    verdict.foundWith? forced = some found ↔ verdict = .fits forced found := by
  cases verdict <;> simp [foundWith?]

/-- No verdict is found with less than the least. -/
theorem filterMap_foundWith?_eq_nil {verdicts : List Verdict} {forced : Nat}
    (less : ∀ other ∈ verdicts.filterMap forced?, forced < other) :
    verdicts.filterMap (foundWith? forced) = [] := by
  refine List.filterMap_eq_nil_iff.mpr fun verdict listed => Option.eq_none_iff_forall_ne_some.mpr ?_
  intro found fits
  rw [foundWith?_eq_some_iff] at fits
  exact absurd (less forced (List.mem_filterMap.mpr ⟨verdict, listed, by rw [fits]; rfl⟩)) (Nat.lt_irrefl _)

end Verdict

namespace Standing

open Verdict

/-- What a standing says of the choices looked at: its leaders are those that force fewest attributes. -/
structure Reflects (overridesRename : Bool) (done : List Verdict) (standing : Standing) : Prop where
  nothing : standing.leaders = none → done.filterMap forced? = []
  leaders : ∀ leaders, standing.leaders = some leaders →
    (done.filterMap forced?).min? = some leaders.forced ∧
      done.filterMap (foundWith? leaders.forced) = leaders.first :: leaders.others
  overridesRename : standing.overridesRename = (overridesRename || done.contains .overridesRename)

variable {overridesRename : Bool} {done : List Verdict} {standing : Standing}

theorem reflects_start : Reflects overridesRename [] { overridesRename } :=
  ⟨fun _ => rfl, by simp, by simp⟩

section Noting

variable (reflects : Reflects overridesRename done standing)

include reflects

/-- A choice that does not fit changes the leaders in nothing. -/
theorem Reflects.note_unfit : Reflects overridesRename (done ++ [.unfit]) (standing.note .unfit) := by
  refine ⟨fun none => ?_, fun leaders lead => ?_, ?_⟩
  · simpa [forced?] using reflects.nothing none
  · simpa [List.filterMap_cons, forced?, foundWith?] using reflects.leaders leaders lead
  · simpa [note] using reflects.overridesRename

theorem Reflects.note_overridesRename :
    Reflects overridesRename (done ++ [.overridesRename]) (standing.note .overridesRename) := by
  refine ⟨fun none => ?_, fun leaders lead => ?_, ?_⟩
  · simpa [forced?] using reflects.nothing none
  · simpa [List.filterMap_cons, forced?, foundWith?] using reflects.leaders leaders lead
  · simp [note]

/-- A choice that forces fewer attributes than any other one is the only leader. -/
theorem Reflects.lead {forced : Nat} {found : List SideMatch}
    (less : ∀ other ∈ done.filterMap forced?, forced < other) :
    Reflects overridesRename (done ++ [.fits forced found])
      { standing with leaders := some { forced, first := found } } := by
  refine ⟨by simp, ?_, ?_⟩
  · rintro _ ⟨⟩
    constructor
    · refine List.min?_eq_some_iff.mpr ⟨by simp [forced?], fun other listed => ?_⟩
      rw [List.filterMap_append] at listed
      rcases List.mem_append.mp listed with earlier | here
      · exact Nat.le_of_lt (less other earlier)
      · exact Nat.le_of_eq (List.mem_singleton.mp here).symm
    · rw [List.filterMap_append, filterMap_foundWith?_eq_nil less]
      simp [foundWith?]
  · simpa using reflects.overridesRename

/-- A choice that forces as many attributes as the leaders comes after them. -/
theorem Reflects.share {leaders : Leaders} (lead : standing.leaders = some leaders)
    {found : List SideMatch} :
    Reflects overridesRename (done ++ [.fits leaders.forced found])
      { standing with leaders := some { leaders with others := leaders.others ++ [found] } } := by
  obtain ⟨least, first⟩ := reflects.leaders leaders lead
  refine ⟨by simp, ?_, ?_⟩
  · rintro _ ⟨⟩
    obtain ⟨listed, atMost⟩ := List.min?_eq_some_iff.mp least
    refine ⟨List.min?_eq_some_iff.mpr ⟨?_, fun other present => ?_⟩, ?_⟩
    · rw [List.filterMap_append]
      exact List.mem_append_left _ listed
    · rw [List.filterMap_append] at present
      rcases List.mem_append.mp present with earlier | here
      · exact atMost other earlier
      · exact Nat.le_of_eq (List.mem_singleton.mp here).symm
    · rw [List.filterMap_append, first]
      simp [foundWith?]
  · simpa using reflects.overridesRename

/-- A choice that forces more attributes than the leaders falls behind. -/
theorem Reflects.fallBehind {leaders : Leaders} (lead : standing.leaders = some leaders) {forced : Nat}
    (more : leaders.forced < forced) {found : List SideMatch} :
    Reflects overridesRename (done ++ [.fits forced found]) standing := by
  obtain ⟨least, first⟩ := reflects.leaders leaders lead
  refine ⟨fun none => ?_, fun other alsoLead => ?_, ?_⟩
  · rw [lead] at none
    cases none
  · rw [lead] at alsoLead
    cases alsoLead
    obtain ⟨listed, atMost⟩ := List.min?_eq_some_iff.mp least
    refine ⟨List.min?_eq_some_iff.mpr ⟨?_, fun other present => ?_⟩, ?_⟩
    · rw [List.filterMap_append]
      exact List.mem_append_left _ listed
    · rw [List.filterMap_append] at present
      rcases List.mem_append.mp present with earlier | here
      · exact atMost other earlier
      · rw [List.mem_singleton.mp here]
        exact Nat.le_of_lt more
    · rw [List.filterMap_append, first]
      simp [foundWith?, Nat.ne_of_gt more]
  · simpa using reflects.overridesRename

/-- Noting one more choice keeps what a standing says. -/
theorem Reflects.note (verdict : Verdict) :
    Reflects overridesRename (done ++ [verdict]) (standing.note verdict) := by
  cases verdict with
  | unfit => exact reflects.note_unfit
  | overridesRename => exact reflects.note_overridesRename
  | fits forced found =>
    unfold Standing.note
    dsimp only
    split
    · rename_i none
      refine reflects.lead ?_
      rw [reflects.nothing none]
      exact fun other listed => absurd listed List.not_mem_nil
    · rename_i leaders lead
      obtain ⟨_, atMost⟩ := List.min?_eq_some_iff.mp (reflects.leaders leaders lead).1
      split
      · rename_i less
        exact reflects.lead fun other listed => Nat.lt_of_lt_of_le less (atMost other listed)
      · rename_i enough
        split
        · rename_i same
          subst same
          exact reflects.share lead
        · rename_i different
          exact reflects.fallBehind lead (by omega)

end Noting

/-- Comparing all choices in turn leaves those in the lead that force fewest attributes. -/
theorem reflects_foldl_note (overridesRename : Bool) (verdicts : List Verdict) :
    Reflects overridesRename verdicts (verdicts.foldl note { overridesRename }) := by
  induction verdicts using List.reverseRecOn with
  | nil => exact reflects_start
  | append_singleton verdicts verdict ih =>
    rw [List.foldl_append, List.foldl_cons, List.foldl_nil]
    exact ih.note verdict

end Standing

namespace Verdict

/-- The best of some verdicts is the only one of those that force fewest attributes. -/
theorem best_eq (overridesRename : Bool) (verdicts : List Verdict) : best overridesRename verdicts =
    match (verdicts.filterMap forced?).min? with
    | none => .error (.ofOverride (overridesRename || verdicts.contains .overridesRename))
    | some least =>
      match verdicts.filterMap (foundWith? least) with
      | [found] => .ok found
      | _ => .error .multipleSources := by
  have reflects := Standing.reflects_foldl_note overridesRename verdicts
  unfold best Standing.leader
  split
  · rename_i none
    rw [reflects.nothing none, reflects.overridesRename]
    rfl
  all_goals
    rename_i lead
    obtain ⟨least, first⟩ := reflects.leaders _ lead
    simp only [least, first]

/-- Where nothing is best and nothing is tied, no choice fits, and the reason is a rename if one was in the
way. -/
theorem reason_of_best {overridesRename : Bool} {verdicts : List Verdict} {reason : MatchFailure}
    (failed : best overridesRename verdicts = .error reason) (single : reason ≠ .multipleSources) :
    verdicts.filterMap forced? = [] ∧
      reason = .ofOverride (overridesRename || verdicts.contains .overridesRename) := by
  rw [best_eq] at failed
  split at failed
  · rename_i none
    cases failed
    exact ⟨List.min?_eq_none_iff.mp none, rfl⟩
  · split at failed
    · cases failed
    · cases failed
      contradiction

end Verdict

end ClassModel
