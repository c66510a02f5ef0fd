import ClassModel.NameSet
import Mathlib.Data.Finset.Card
import Mathlib.Data.List.Nodup

/-! # Name sets as finite sets

Two name sets with the same names are the same set, and their sizes count as those of finite sets.
-/

namespace ClassModel.NameSet

theorem nodup_toList (set : NameSet) : set.toList.Nodup := by
  refine set.ascending.imp ?_
  rintro first second less rfl
  exact String.lt_irrefl _ less

@[ext] theorem ext {left right : NameSet} (same : ∀ name, name ∈ left ↔ name ∈ right) :
    left = right := by
  obtain ⟨leftNames, leftSorted⟩ := left
  obtain ⟨rightNames, rightSorted⟩ := right
  have perm : leftNames.Perm rightNames :=
    (List.perm_ext_iff_of_nodup (nodup_toList ⟨_, leftSorted⟩) (nodup_toList ⟨_, rightSorted⟩)).mpr same
  have equal : leftNames = rightNames :=
    perm.eq_of_pairwise (fun first second _ _ less more =>
      absurd (String.lt_trans less more) (String.lt_irrefl _)) leftSorted rightSorted
  subst equal
  rfl

@[simp] theorem not_mem_empty (name : Name) : name ∉ (∅ : NameSet) := List.not_mem_nil

theorem ofList_eq_iff {left right : List Name} :
    ofList left = ofList right ↔ ∀ name, name ∈ left ↔ name ∈ right := by
  simp only [NameSet.ext_iff, mem_ofList]

theorem isEmpty_iff {set : NameSet} : set.isEmpty = true ↔ ∀ name, name ∉ set := by
  rw [isEmpty, List.isEmpty_iff, List.eq_nil_iff_forall_not_mem]
  rfl

theorem isEmpty_eq_false_iff {set : NameSet} : set.isEmpty = false ↔ ∃ name, name ∈ set := by
  rw [← Bool.not_eq_true, isEmpty_iff]
  push Not
  rfl

theorem isEmpty_ofList (names : List Name) : (ofList names).isEmpty = names.isEmpty := by
  rw [Bool.eq_iff_iff, isEmpty_iff, List.isEmpty_iff, List.eq_nil_iff_forall_not_mem]
  simp only [mem_ofList]

/-- The names of a set as a finite set. -/
def toFinset (set : NameSet) : Finset Name := ⟨set.toList, set.nodup_toList⟩

@[simp] theorem mem_toFinset {set : NameSet} {name : Name} : name ∈ set.toFinset ↔ name ∈ set := Iff.rfl

theorem card_toFinset (set : NameSet) : set.toFinset.card = set.size := rfl

theorem toFinset_difference (left right : NameSet) :
    (left.difference right).toFinset = left.toFinset \ right.toFinset := by
  ext name
  simp

/-- Of two sets of one size each lacks as many names of the other. -/
theorem size_difference_comm {left right : NameSet} (same : left.size = right.size) :
    (left.difference right).size = (right.difference left).size := by
  rw [← card_toFinset, ← card_toFinset, toFinset_difference, toFinset_difference]
  exact Finset.card_sdiff_comm same

/-- Of two sets of one size each has a name that the other lacks if the other has one. -/
theorem exists_mem_difference {left right : NameSet} (same : left.size = right.size) {name : Name}
    (present : name ∈ left.difference right) : ∃ other, other ∈ right.difference left := by
  have positive : 0 < (right.difference left).size := by
    rw [← size_difference_comm same]
    exact List.length_pos_of_mem present
  exact List.exists_mem_of_length_pos positive

/-- A set of at most one name lists that name. -/
theorem toList_eq_singleton {set : NameSet} (small : set.size ≤ 1) {name : Name} (present : name ∈ set) :
    set.toList = [name] := by
  obtain ⟨first, rest⟩ := List.length_eq_one_iff.mp
    (Nat.le_antisymm small (List.length_pos_of_mem present))
  rw [mem_iff, rest, List.mem_singleton] at present
  rw [present, rest]

theorem toList_eq_singleton_iff {set : NameSet} {only : Name} :
    set.toList = [only] ↔ ∀ name, name ∈ set ↔ name = only := by
  constructor
  · intro single name
    rw [mem_iff, single, List.mem_singleton]
  · intro all
    have one : ({only} : Finset Name) = set.toFinset := by
      ext name
      rw [mem_toFinset, all, Finset.mem_singleton]
    have small : set.size ≤ 1 := by
      rw [← card_toFinset, ← one, Finset.card_singleton]
    exact toList_eq_singleton small ((all only).mpr rfl)

/-- A set that is not empty and not a single name has two names. -/
theorem exists_two_iff {set : NameSet} (inhabited : ∃ name, name ∈ set) :
    (∀ only, set.toList ≠ [only]) ↔ ∃ first second, first ∈ set ∧ second ∈ set ∧ first ≠ second := by
  constructor
  · intro several
    obtain ⟨first, present⟩ := inhabited
    by_contra alone
    push Not at alone
    refine several first (toList_eq_singleton_iff.mpr fun name => ⟨fun other => ?_, ?_⟩)
    · exact alone name first other present
    · rintro rfl
      exact present
  · rintro ⟨first, second, left, right, different⟩ only single
    have all := toList_eq_singleton_iff.mp single
    exact different (((all first).mp left).trans ((all second).mp right).symm)

/-- The names of a union of many sets. -/
theorem mem_foldl_union {sets : List NameSet} {start : NameSet} {name : Name} :
    name ∈ sets.foldl union start ↔ name ∈ start ∨ ∃ set ∈ sets, name ∈ set := by
  induction sets generalizing start with
  | nil => simp
  | cons set rest ih => rw [List.foldl_cons, ih, mem_union, List.exists_mem_cons_iff, or_assoc]

end ClassModel.NameSet
