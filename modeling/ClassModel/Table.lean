/-! # Tables in insertion order

A table is a list of entries in which every key occurs once. A new key goes to the end, a known
key keeps its place when its value changes, and a table may instead be kept sorted by inserting
before the first larger key. That keys are distinct is part of the type, so looking a key up
and finding its entry in the list are the same thing (`get?_eq_some_iff`).
-/

namespace ClassModel

/-- A finite table in insertion order with one entry per key. -/
structure Table (κ α : Type) where
  entries : List (κ × α)
  nodup : (entries.map (·.1)).Nodup
  deriving DecidableEq, Repr

namespace Table

variable {κ α β : Type} {ε : Type}

/-- The table without entries. -/
def empty : Table κ α := ⟨[], by simp⟩

instance : EmptyCollection (Table κ α) := ⟨empty⟩

instance : Inhabited (Table κ α) := ⟨empty⟩

def keys (table : Table κ α) : List κ := table.entries.map (·.1)

def values (table : Table κ α) : List α := table.entries.map (·.2)

def size (table : Table κ α) : Nat := table.entries.length

def isEmpty (table : Table κ α) : Bool := table.entries.isEmpty

@[ext] theorem ext {left right : Table κ α} (same : left.entries = right.entries) : left = right := by
  cases left
  cases right
  simp_all

section Lookup

variable [DecidableEq κ]

/-- The value of the first entry with the key. -/
def lookup (key : κ) : List (κ × α) → Option α
  | [] => none
  | entry :: rest => if entry.1 = key then some entry.2 else lookup key rest

/-- The value entered for a key. -/
def get? (table : Table κ α) (key : κ) : Option α := lookup key table.entries

def contains (table : Table κ α) (key : κ) : Bool := (table.get? key).isSome

theorem lookup_eq_none_iff {key : κ} {entries : List (κ × α)} :
    lookup key entries = none ↔ key ∉ entries.map (·.1) := by
  induction entries with
  | nil => simp [lookup]
  | cons entry rest ih =>
    simp only [lookup, List.map_cons, List.mem_cons, not_or]
    split
    · simp_all
    · rw [ih]
      exact ⟨fun absent => ⟨fun same => by simp_all, absent⟩, fun absent => absent.2⟩

theorem mem_of_lookup {key : κ} {value : α} {entries : List (κ × α)}
    (found : lookup key entries = some value) : (key, value) ∈ entries := by
  induction entries with
  | nil => simp [lookup] at found
  | cons entry rest ih =>
    obtain ⟨first, entered⟩ := entry
    simp only [lookup] at found
    split at found
    · simp_all
    · exact List.mem_cons_of_mem _ (ih found)

theorem lookup_of_mem {key : κ} {value : α} {entries : List (κ × α)}
    (distinct : (entries.map (·.1)).Nodup) (present : (key, value) ∈ entries) :
    lookup key entries = some value := by
  induction entries with
  | nil => simp at present
  | cons entry rest ih =>
    simp only [List.map_cons, List.nodup_cons] at distinct
    simp only [lookup]
    rcases List.mem_cons.mp present with same | later
    · subst same
      simp
    · split
      · rename_i clash
        exact absurd (List.mem_map_of_mem (f := (·.1)) later) (clash ▸ distinct.1)
      · exact ih distinct.2 later

/-- Looking a key up finds exactly the entry that the table lists for it. -/
theorem get?_eq_some_iff {table : Table κ α} {key : κ} {value : α} :
    table.get? key = some value ↔ (key, value) ∈ table.entries :=
  ⟨mem_of_lookup, lookup_of_mem table.nodup⟩

theorem get?_eq_none_iff {table : Table κ α} {key : κ} :
    table.get? key = none ↔ key ∉ table.keys :=
  lookup_eq_none_iff

theorem contains_iff {table : Table κ α} {key : κ} :
    table.contains key = true ↔ key ∈ table.keys := by
  rw [contains, Option.isSome_iff_ne_none, ne_eq, get?_eq_none_iff, Decidable.not_not]

end Lookup

section Insert

variable [DecidableEq κ]

/-- Replaces the value of a known key in place and puts a new key before the first entry that it
goes before, at the end if there is none. -/
def insertEntry (before : κ → κ → Bool) (key : κ) (value : α) : List (κ × α) → List (κ × α)
  | [] => [(key, value)]
  | entry :: rest =>
    if entry.1 = key then (key, value) :: rest
    else if before key entry.1 && !(rest.map (·.1)).contains key then (key, value) :: entry :: rest
    else entry :: insertEntry before key value rest

theorem mem_keys_insertEntry {before : κ → κ → Bool} {key other : κ} {value : α}
    {entries : List (κ × α)} :
    other ∈ (insertEntry before key value entries).map (·.1) ↔
      other = key ∨ other ∈ entries.map (·.1) := by
  induction entries with
  | nil => simp [insertEntry]
  | cons entry rest ih =>
    simp only [insertEntry]
    split
    · rename_i same
      subst same
      simp
    · split
      · simp
      · simp only [List.map_cons, List.mem_cons, ih]
        exact ⟨fun h => by rcases h with h | h | h <;> simp [h],
          fun h => by rcases h with h | h | h <;> simp [h]⟩

theorem nodup_insertEntry {before : κ → κ → Bool} {key : κ} {value : α} {entries : List (κ × α)}
    (distinct : (entries.map (·.1)).Nodup) :
    ((insertEntry before key value entries).map (·.1)).Nodup := by
  induction entries with
  | nil => simp [insertEntry]
  | cons entry rest ih =>
    simp only [List.map_cons, List.nodup_cons] at distinct
    simp only [insertEntry]
    split
    · rename_i same
      subst same
      simp only [List.map_cons, List.nodup_cons]
      exact distinct
    · rename_i other
      split
      · rename_i place
        have absent : key ∉ rest.map (·.1) := by
          simpa using (Bool.and_eq_true_iff.mp place).2
        simp only [List.map_cons, List.nodup_cons, List.mem_cons, not_or]
        exact ⟨⟨fun same => other same.symm, absent⟩, distinct⟩
      · simp only [List.map_cons, List.nodup_cons]
        refine ⟨fun present => ?_, ih distinct.2⟩
        rcases mem_keys_insertEntry.mp present with same | present
        · exact other same
        · exact distinct.1 present

/-- Enters a value: a known key keeps its place, a new one goes to the end. -/
def insert (table : Table κ α) (key : κ) (value : α) : Table κ α :=
  ⟨insertEntry (fun _ _ => false) key value table.entries, nodup_insertEntry table.nodup⟩

/-- Enters a value: a known key keeps its place, a new one goes before the first key that it
goes before. -/
def insertSorted (before : κ → κ → Bool) (table : Table κ α) (key : κ) (value : α) : Table κ α :=
  ⟨insertEntry before key value table.entries, nodup_insertEntry table.nodup⟩

/-- Changes the value of a key, from a default if the key is new. -/
def update (table : Table κ α) (key : κ) (start : α) (change : α → α) : Table κ α :=
  table.insert key (change ((table.get? key).getD start))

/-- The table of a list of pairs; of two values for one key the later one counts. -/
def ofList (pairs : List (κ × α)) : Table κ α :=
  pairs.foldl (fun table pair => table.insert pair.1 pair.2) empty

/-- The table of a list of pairs, kept sorted; of two values for one key the later one counts. -/
def ofListSorted (before : κ → κ → Bool) (pairs : List (κ × α)) : Table κ α :=
  pairs.foldl (fun table pair => table.insertSorted before pair.1 pair.2) empty

/-- The table without one key; the other entries keep their order. -/
def erase (table : Table κ α) (key : κ) : Table κ α :=
  ⟨table.entries.filter (fun entry => entry.1 ≠ key),
    List.Sublist.nodup (List.filter_sublist.map _) table.nodup⟩

@[simp] theorem lookup_insertEntry (before : κ → κ → Bool) (key other : κ) (value : α)
    (entries : List (κ × α)) :
    lookup other (insertEntry before key value entries) =
      if key = other then some value else lookup other entries := by
  induction entries with
  | nil => simp [insertEntry, lookup]
  | cons entry rest ih =>
    simp only [insertEntry]
    split
    · rename_i same
      subst same
      simp only [lookup]
      split <;> simp_all
    · rename_i different
      split
      · simp [lookup]
      · simp only [lookup, ih]
        split
        · rename_i same
          subst same
          simp [Ne.symm different]
        · rfl

/-- After an entry is made, its key has the new value and every other key its old one. -/
theorem get?_insert (table : Table κ α) (key other : κ) (value : α) :
    (table.insert key value).get? other = if key = other then some value else table.get? other :=
  lookup_insertEntry _ key other value table.entries

theorem get?_insertSorted (before : κ → κ → Bool) (table : Table κ α) (key other : κ) (value : α) :
    (table.insertSorted before key value).get? other =
      if key = other then some value else table.get? other :=
  lookup_insertEntry before key other value table.entries

end Insert

section Map

/-- Changes every value and keeps the keys. -/
def mapValues (table : Table κ α) (change : κ → α → β) : Table κ β :=
  ⟨table.entries.map (fun entry => (entry.1, change entry.1 entry.2)), by
    simpa [List.map_map, Function.comp_def] using table.nodup⟩

/-- Changes every value in order and keeps the keys; the first failure counts. -/
def mapEntries (change : κ → α → Except ε β) : List (κ × α) → Except ε (List (κ × β))
  | [] => .ok []
  | entry :: rest =>
    match change entry.1 entry.2 with
    | .error failure => .error failure
    | .ok value =>
      match mapEntries change rest with
      | .error failure => .error failure
      | .ok others => .ok ((entry.1, value) :: others)

theorem keys_mapEntries {change : κ → α → Except ε β} {entries : List (κ × α)}
    {changed : List (κ × β)} (success : mapEntries change entries = .ok changed) :
    changed.map (·.1) = entries.map (·.1) := by
  induction entries generalizing changed with
  | nil =>
    simp only [mapEntries, Except.ok.injEq] at success
    subst success
    rfl
  | cons entry rest ih =>
    simp only [mapEntries] at success
    split at success
    · simp at success
    · split at success
      · simp at success
      · rename_i others done
        simp only [Except.ok.injEq] at success
        subst success
        simp [ih done]

/-- Changes every value in order, unless a change fails, and keeps the keys. -/
def mapValuesM (table : Table κ α) (change : κ → α → Except ε β) : Except ε (Table κ β) :=
  match success : mapEntries change table.entries with
  | .error failure => .error failure
  | .ok changed => .ok ⟨changed, by rw [keys_mapEntries success]; exact table.nodup⟩

end Map

end Table

end ClassModel
