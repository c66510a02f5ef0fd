import ClassModel.Identifier

/-! # Sets of names

A set of names is a strictly ascending list, so that two sets with the same members are equal
and a set is shown in the order of its names.
-/

namespace ClassModel

/-- A finite set of names in ascending order. -/
structure NameSet where
  toList : List Name
  ascending : toList.Pairwise (· < ·)
  deriving DecidableEq

namespace NameSet

/-- The set without names. -/
def empty : NameSet := ⟨[], .nil⟩

instance : EmptyCollection NameSet := ⟨empty⟩

instance : Membership Name NameSet := ⟨fun set name => name ∈ set.toList⟩

theorem mem_iff {name : Name} {set : NameSet} : name ∈ set ↔ name ∈ set.toList := Iff.rfl

instance (name : Name) (set : NameSet) : Decidable (name ∈ set) :=
  inferInstanceAs (Decidable (name ∈ set.toList))

def size (set : NameSet) : Nat := set.toList.length

def isEmpty (set : NameSet) : Bool := set.toList.isEmpty

/-- Puts a name in its place in an ascending list, unless it is there. -/
def place (name : Name) : List Name → List Name
  | [] => [name]
  | first :: rest =>
    if name < first then name :: first :: rest
    else if name = first then first :: rest
    else first :: place name rest

theorem mem_place {name other : Name} {names : List Name} :
    other ∈ place name names ↔ other = name ∨ other ∈ names := by
  induction names with
  | nil => simp [place]
  | cons first rest ih =>
    simp only [place]
    split
    · simp
    · split
      · rename_i same
        subst same
        simp
      · simp only [List.mem_cons, ih]
        exact ⟨fun h => by rcases h with h | h | h <;> simp [h],
          fun h => by rcases h with h | h | h <;> simp [h]⟩

theorem ascending_place {name : Name} {names : List Name} (sorted : names.Pairwise (· < ·)) :
    (place name names).Pairwise (· < ·) := by
  induction names with
  | nil => simp [place]
  | cons first rest ih =>
    have ⟨below, sortedRest⟩ := List.pairwise_cons.mp sorted
    simp only [place]
    split
    · rename_i less
      refine List.pairwise_cons.mpr ⟨fun other present => ?_, sorted⟩
      rcases List.mem_cons.mp present with same | later
      · exact same ▸ less
      · exact String.lt_trans less (below other later)
    · rename_i notLess
      split
      · exact sorted
      · rename_i different
        have less : first < name :=
          Std.lt_of_le_of_ne (String.not_lt.mp notLess) (Ne.symm different)
        refine List.pairwise_cons.mpr ⟨fun other present => ?_, ih sortedRest⟩
        rcases mem_place.mp present with same | later
        · exact same ▸ less
        · exact below other later

/-- The set with one more name. -/
def insert (set : NameSet) (name : Name) : NameSet :=
  ⟨place name set.toList, ascending_place set.ascending⟩

@[simp] theorem mem_insert {set : NameSet} {name other : Name} :
    other ∈ set.insert name ↔ other = name ∨ other ∈ set := mem_place

/-- The names of a list. -/
def ofList (names : List Name) : NameSet := names.foldl insert empty

/-- The names of either set. -/
def union (left right : NameSet) : NameSet := right.toList.foldl insert left

/-- The names of the first set that are not in the second. -/
def difference (left right : NameSet) : NameSet :=
  ⟨left.toList.filter (· ∉ right), left.ascending.filter _⟩

theorem mem_foldl_insert {names : List Name} {set : NameSet} {name : Name} :
    name ∈ names.foldl insert set ↔ name ∈ set ∨ name ∈ names := by
  induction names generalizing set with
  | nil => simp
  | cons first rest ih =>
    simp only [List.foldl_cons, ih, mem_insert, List.mem_cons]
    exact ⟨fun h => by rcases h with (h | h) | h <;> simp [h],
      fun h => by rcases h with h | h | h <;> simp [h]⟩

@[simp] theorem mem_ofList {names : List Name} {name : Name} : name ∈ ofList names ↔ name ∈ names := by
  rw [ofList, mem_foldl_insert]
  simp [empty, mem_iff]

@[simp] theorem mem_union {left right : NameSet} {name : Name} :
    name ∈ left.union right ↔ name ∈ left ∨ name ∈ right := by
  rw [union, mem_foldl_insert]
  simp [mem_iff]

@[simp] theorem mem_difference {left right : NameSet} {name : Name} :
    name ∈ left.difference right ↔ name ∈ left ∧ name ∉ right := by
  simp [difference, mem_iff]

end NameSet

end ClassModel
