import ClassModel.Proofs.Postings

/-! # Sorted tables

A table that is only ever filled by `insertSorted` stands in the order of its keys, and a table in that
order is the same again when its entries are inserted one after the other. The references to a class are
such a table, by relationship number.
-/

namespace ClassModel

namespace Rnum

theorem before_trans {first second third : Rnum} (less : first.before second = true)
    (more : second.before third = true) : first.before third = true := by
  simp only [before, beq_iff_eq] at *
  exact Std.TransCmp.lt_trans less more

theorem not_before_of_before {first second : Rnum} (less : first.before second = true) :
    second.before first = false := by
  simp only [before, beq_iff_eq, beq_eq_false_iff_ne] at *
  rw [Std.OrientedOrd.eq_swap, less]
  simp

/-- Of two numbers one comes before the other. -/
theorem before_total {first second : Rnum} (different : first ≠ second)
    (notLess : first.before second = false) : second.before first = true := by
  simp only [before, beq_iff_eq, beq_eq_false_iff_ne] at *
  rw [Std.OrientedOrd.eq_swap]
  cases order : compare first second with
  | lt => exact absurd order notLess
  | eq => exact absurd (compare_eq_iff.mp order) different
  | gt => rfl

end Rnum

namespace Table

variable {α : Type}

/-- Whether the entries stand in the order of their numbers. -/
def Ascending (entries : List (Rnum × α)) : Prop :=
  entries.Pairwise fun first second => first.1.before second.1 = true

theorem ascending_insertEntry {key : Rnum} {value : α} {entries : List (Rnum × α)}
    (ascending : Ascending entries) : Ascending (insertEntry Rnum.before key value entries) := by
  induction entries with
  | nil => exact List.pairwise_singleton ..
  | cons entry rest ih =>
    obtain ⟨below, sorted⟩ := List.pairwise_cons.mp ascending
    simp only [insertEntry]
    split
    · rename_i same
      exact List.pairwise_cons.mpr ⟨fun other present => same ▸ below other present, sorted⟩
    · rename_i different
      split
      · rename_i place
        have less := (Bool.and_eq_true_iff.mp place).1
        refine List.pairwise_cons.mpr ⟨fun other present => ?_, ascending⟩
        rcases List.mem_cons.mp present with rfl | later
        · exact less
        · exact Rnum.before_trans less (below other later)
      · rename_i notPlace
        refine List.pairwise_cons.mpr ⟨fun other present => ?_, ih sorted⟩
        rcases mem_keys_insertEntry.mp (List.mem_map_of_mem present) with new | old
        · rw [new]
          by_cases listed : key ∈ rest.map (·.1)
          · obtain ⟨known, member, rfl⟩ := List.mem_map.mp listed
            exact below known member
          · refine Rnum.before_total (Ne.symm different) ?_
            simpa [listed] using notPlace
        · obtain ⟨known, member, same⟩ := List.mem_map.mp old
          rw [← same]
          exact below known member

/-- A number that comes before none of the others is entered behind them. -/
theorem insertEntry_eq_append {key : Rnum} {value : α} {entries : List (Rnum × α)}
    (last : ∀ entry ∈ entries, entry.1.before key = true) :
    insertEntry Rnum.before key value entries = entries ++ [(key, value)] := by
  induction entries with
  | nil => rfl
  | cons entry rest ih =>
    obtain ⟨less, last⟩ := List.forall_mem_cons.mp last
    have different : entry.1 ≠ key := by
      intro same
      rw [same] at less
      exact Bool.noConfusion ((Rnum.not_before_of_before less).symm.trans less)
    rw [insertEntry, if_neg different, Rnum.not_before_of_before less, ih last]
    rfl

/-- Entering the entries of a sorted table in order gives the table again. -/
theorem ofListSorted_entries {table : Table Rnum α} (ascending : Ascending table.entries) :
    ofListSorted Rnum.before table.entries = table := by
  have grown : ∀ (rest : List (Rnum × α)) (start : Table Rnum α),
      Ascending (start.entries ++ rest) →
      (rest.foldl (fun table pair => table.insertSorted Rnum.before pair.1 pair.2) start).entries =
        start.entries ++ rest := by
    intro rest
    induction rest with
    | nil => simp
    | cons entry rest ih =>
      intro start ascending
      have placed : (start.insertSorted Rnum.before entry.1 entry.2).entries =
          start.entries ++ [entry] :=
        insertEntry_eq_append fun known member =>
          (List.pairwise_append.mp ascending).2.2 known member entry List.mem_cons_self
      rw [List.foldl_cons, ih _ (by simpa [placed] using ascending), placed, List.append_assoc]
      rfl
  exact ext (grown table.entries empty ascending)

end Table

namespace ReferentialTable

/-- The references to every class stand in the order of their numbers. -/
def Ascending (table : ReferentialTable) : Prop :=
  ∀ entry ∈ table.classes.entries, Table.Ascending entry.2.entries

theorem ascending_ofClasses (classNames : List Name) : (ofClasses classNames).Ascending := by
  rintro ⟨referred, references⟩ member
  have found := Table.mem_of_get?_ofList (Table.get?_eq_some_iff.mpr member)
  obtain ⟨_, _, same⟩ := List.mem_map.mp found
  cases same
  exact List.Pairwise.nil

theorem Ascending.post {table : ReferentialTable} (ascending : table.Ascending) (posting : Posting) :
    (table.post posting).Ascending := by
  rintro ⟨referred, references⟩ member
  have found := Table.get?_eq_some_iff.mpr member
  simp only [ReferentialTable.post, record, Table.get?_insert] at found
  split at found
  · cases found
    refine Table.ascending_insertEntry ?_
    cases known : table.classes.get? posting.referred with
    | none => exact List.Pairwise.nil
    | some references => exact ascending _ (Table.get?_eq_some_iff.mp known)
  · exact ascending _ (Table.get?_eq_some_iff.mp found)

/-- Records are entered in the order of their numbers, class by class. -/
theorem ascending_ofMatches (relationships : Table Rnum Resolved.Relationship) (classNames : List Name)
    (found : List ClassMatches) :
    (References.ofMatches relationships classNames found).referential.Ascending := by
  rw [References.referential_ofMatches]
  generalize found.flatMap (·.postings relationships) = postings
  have start := ascending_ofClasses classNames
  revert start
  generalize ofClasses classNames = table
  intro start
  induction postings generalizing table with
  | nil => exact start
  | cons posting rest ih => exact ih _ (start.post posting)

end ReferentialTable

end ClassModel
