import ClassModel.Proofs.Sequencing
import ClassModel.Table
import Mathlib.Data.List.Nodup

/-! # Tables as finite maps

What the operations on a table do to its look-ups, its keys and, where a key is new, to the
list of its entries.
-/

namespace ClassModel.Table

variable {κ α β ε : Type}

theorem keys_nodup (table : Table κ α) : table.keys.Nodup := table.nodup

@[simp] theorem entries_empty : (empty : Table κ α).entries = [] := rfl

@[simp] theorem keys_empty : (empty : Table κ α).keys = [] := rfl

section Lookup

variable [DecidableEq κ]

@[simp] theorem get?_empty (key : κ) : (empty : Table κ α).get? key = none := rfl

theorem mem_keys_iff {table : Table κ α} {key : κ} :
    key ∈ table.keys ↔ ∃ value, table.get? key = some value := by
  rw [← contains_iff, contains, Option.isSome_iff_exists]

theorem mem_keys_of_get? {table : Table κ α} {key : κ} {value : α}
    (found : table.get? key = some value) : key ∈ table.keys :=
  mem_keys_iff.mpr ⟨value, found⟩

theorem mem_values_iff {table : Table κ α} {value : α} :
    value ∈ table.values ↔ ∃ key, table.get? key = some value := by
  simp [values, get?_eq_some_iff]

theorem mem_values_of_get? {table : Table κ α} {key : κ} {value : α}
    (found : table.get? key = some value) : value ∈ table.values :=
  mem_values_iff.mpr ⟨key, found⟩

/-- Values occur once exactly if each is found under one key. -/
theorem nodup_values_iff {table : Table κ α} : table.values.Nodup ↔ ∀ first second value,
    table.get? first = some value → table.get? second = some value → first = second := by
  constructor
  · intro distinct first second value one two
    exact congrArg Prod.fst (List.inj_on_of_nodup_map distinct (get?_eq_some_iff.mp one)
      (get?_eq_some_iff.mp two) rfl)
  · intro single
    refine List.Nodup.map_on ?_ (List.Nodup.of_map _ table.nodup)
    rintro ⟨first, value⟩ one ⟨second, other⟩ two (same : value = other)
    subst same
    rw [single first second value (get?_eq_some_iff.mpr one) (get?_eq_some_iff.mpr two)]

/-- Where values stand under a name of their own, those names are the keys. -/
theorem map_values_eq_keys {table : Table κ α} {view : α → κ}
    (named : ∀ key value, table.get? key = some value → view value = key) :
    table.values.map view = table.keys := by
  rw [values, keys, List.map_map]
  exact List.map_congr_left fun entry listed => named _ _ (get?_eq_some_iff.mpr listed)

/-- In a table at most one value of which a search accepts, the search finds that of its key. -/
theorem findSome?_values {table : Table κ α} {find : α → Option β}
    {key : κ} (only : ∀ other value, table.get? other = some value → other ≠ key → find value = none) :
    table.values.findSome? find = (table.get? key).bind find := by
  cases found : (table.get? key).bind find with
  | none =>
    refine List.findSome?_eq_none_iff.mpr fun value present => ?_
    obtain ⟨other, known⟩ := mem_values_iff.mp present
    by_cases same : other = key
    · rw [same] at known
      rwa [known, Option.bind_some] at found
    · exact only other value known same
  | some result =>
    obtain ⟨value, known, result⟩ := Option.bind_eq_some_iff.mp found
    cases searched : table.values.findSome? find with
    | none =>
      rw [List.findSome?_eq_none_iff.mp searched value (mem_values_of_get? known)] at result
      cases result
    | some other =>
      obtain ⟨holder, present, holds⟩ := List.exists_of_findSome?_eq_some searched
      obtain ⟨place, held⟩ := mem_values_iff.mp present
      by_cases same : place = key
      · rw [same, known] at held
        cases held
        rw [← holds, result]
      · rw [only place holder held same] at holds
        cases holds

theorem contains_eq_false_iff {table : Table κ α} {key : κ} :
    table.contains key = false ↔ table.get? key = none := by
  simp [contains]

theorem contains_eq_true_iff {table : Table κ α} {key : κ} :
    table.contains key = true ↔ ∃ value, table.get? key = some value := by
  rw [contains, Option.isSome_iff_exists]

/-- A table lists nothing exactly when it finds nothing. -/
theorem isEmpty_iff {table : Table κ α} : table.isEmpty = true ↔ ∀ key, table.get? key = none := by
  rw [isEmpty, List.isEmpty_iff]
  constructor
  · intro nothing key
    simp [get?, nothing, lookup]
  · intro absent
    cases listed : table.entries with
    | nil => rfl
    | cons entry rest =>
      have found : table.get? entry.1 = some entry.2 := get?_eq_some_iff.mpr (by simp [listed])
      simp [absent entry.1] at found

/-- In a list of pairs made of items a key finds the pair of the first item that has it. -/
theorem lookup_map_pairs {ι : Type} (key : ι → κ) (value : ι → α) (items : List ι) (sought : κ) :
    lookup sought (items.map fun item => (key item, value item)) =
      (items.find? (key · = sought)).map value := by
  induction items with
  | nil => rfl
  | cons item rest ih =>
    rw [List.map_cons, lookup, List.find?_cons]
    by_cases same : key item = sought
    · simp [same]
    · simp [same, ih]

end Lookup

section Same

variable [DecidableEq κ]

/-- Whether two tables find the same, in whatever order they list it. -/
def Same (left right : Table κ α) : Prop := ∀ key, left.get? key = right.get? key

/-- Two tables find the same exactly if they list the same entries in some order. -/
theorem same_iff_perm {left right : Table κ α} : left.Same right ↔ left.entries.Perm right.entries := by
  rw [List.perm_ext_iff_of_nodup (List.Nodup.of_map _ left.nodup) (List.Nodup.of_map _ right.nodup)]
  constructor
  · rintro same ⟨key, value⟩
    rw [← get?_eq_some_iff, ← get?_eq_some_iff, same]
  · intro same key
    refine Option.ext fun value => ?_
    rw [get?_eq_some_iff, get?_eq_some_iff, same]

theorem Same.keys_perm {left right : Table κ α} (same : left.Same right) : left.keys.Perm right.keys :=
  (same_iff_perm.mp same).map _

theorem Same.values_perm {left right : Table κ α} (same : left.Same right) :
    left.values.Perm right.values :=
  (same_iff_perm.mp same).map _

theorem Same.contains {left right : Table κ α} (same : left.Same right) (key : κ) :
    left.contains key = right.contains key := by
  rw [Table.contains, Table.contains, same]

/-- The entries of a table can be listed in any order. -/
theorem exists_same_of_perm {table : Table κ α} {entries : List (κ × α)}
    (perm : table.entries.Perm entries) : ∃ other : Table κ α, other.entries = entries ∧ table.Same other :=
  ⟨⟨entries, (perm.map _).nodup_iff.mp table.nodup⟩, rfl, same_iff_perm.mpr perm⟩

end Same

section Insert

variable [DecidableEq κ]

@[simp] theorem mem_keys_insert {table : Table κ α} {key other : κ} {value : α} :
    other ∈ (table.insert key value).keys ↔ other = key ∨ other ∈ table.keys :=
  mem_keys_insertEntry

theorem mem_values_insert {table : Table κ α} {key : κ} {value other : α}
    (present : other ∈ (table.insert key value).values) : other = value ∨ other ∈ table.values := by
  obtain ⟨found, holds⟩ := mem_values_iff.mp present
  rw [get?_insert] at holds
  split at holds
  · exact .inl (Option.some.inj holds).symm
  · exact .inr (mem_values_of_get? holds)

theorem mem_values_insert_self (table : Table κ α) (key : κ) (value : α) :
    value ∈ (table.insert key value).values :=
  mem_values_of_get? (by rw [get?_insert, if_pos rfl])

/-- Entering a value under a new key keeps the values there are. -/
theorem mem_values_insert_of_absent {table : Table κ α} {key : κ} {value other : α}
    (absent : key ∉ table.keys) (present : other ∈ table.values) :
    other ∈ (table.insert key value).values := by
  obtain ⟨known, found⟩ := mem_values_iff.mp present
  have different : key ≠ known := fun same => absent (same ▸ mem_keys_of_get? found)
  exact mem_values_of_get? (by rw [get?_insert, if_neg different, found])

private theorem insertEntry_of_absent {key : κ} {value : α} {entries : List (κ × α)}
    (absent : key ∉ entries.map (·.1)) :
    insertEntry (fun _ _ => false) key value entries = entries ++ [(key, value)] := by
  induction entries with
  | nil => rfl
  | cons entry rest ih =>
    simp only [List.map_cons, List.mem_cons, not_or] at absent
    simp only [insertEntry, Ne.symm absent.1, ↓reduceIte, Bool.false_and, Bool.false_eq_true,
      ih absent.2, List.cons_append]

/-- A new key goes to the end of the table. -/
theorem entries_insert_of_absent {table : Table κ α} {key : κ} {value : α}
    (absent : table.get? key = none) :
    (table.insert key value).entries = table.entries ++ [(key, value)] :=
  insertEntry_of_absent (get?_eq_none_iff.mp absent)

theorem get?_update (table : Table κ α) (key other : κ) (start : α) (change : α → α) :
    (table.update key start change).get? other =
      if key = other then some (change ((table.get? key).getD start)) else table.get? other :=
  get?_insert ..

theorem mem_keys_update {table : Table κ α} {key other : κ} {start : α} {change : α → α} :
    other ∈ (table.update key start change).keys ↔ other = key ∨ other ∈ table.keys :=
  mem_keys_insert

private theorem lookup_filter {key other : κ} (entries : List (κ × α)) :
    lookup other (entries.filter fun entry => entry.1 ≠ key) =
      if key = other then none else lookup other entries := by
  induction entries with
  | nil => simp [lookup]
  | cons entry rest ih =>
    obtain ⟨first, value⟩ := entry
    by_cases same : first = key
    · subst same
      simp only [ne_eq, not_true_eq_false, decide_false, Bool.false_eq_true, not_false_eq_true,
        List.filter_cons_of_neg, ih, lookup]
      split <;> rfl
    · by_cases hit : first = other
      · subst hit
        simp [lookup, same, Ne.symm same]
      · simp [lookup, same, hit, ← ih]

theorem get?_erase (table : Table κ α) (key other : κ) :
    (table.erase key).get? other = if key = other then none else table.get? other :=
  lookup_filter table.entries

end Insert

section InsertNew

variable {ι : Type} [DecidableEq κ]

private theorem foldlM_insertNew_from {step : Table κ α → ι → Except ε (Table κ α)} (key : ι → κ)
    (value : ι → α) {items : List ι}
    (fresh : ∀ item ∈ items, ∀ table, table.get? (key item) = none →
      step table item = .ok (table.insert (key item) (value item)))
    (taken : ∀ item ∈ items, ∀ table next, step table item = .ok next →
      table.get? (key item) = none)
    {start final : Table κ α} :
    items.foldlM step start = .ok final ↔
      (∀ item ∈ items, start.get? (key item) = none) ∧ (items.map key).Nodup ∧
        final.entries = start.entries ++ items.map fun item => (key item, value item) := by
  induction items generalizing start with
  | nil =>
    simp only [List.foldlM_nil, pure, Except.pure, Except.ok.injEq, List.not_mem_nil,
      false_implies, implies_true, List.map_nil, List.nodup_nil, List.append_nil, true_and,
      Table.ext_iff]
    exact eq_comm
  | cons item rest ih =>
    rw [List.forall_mem_cons] at fresh taken
    rw [List.foldlM_cons, bind_eq_ok_iff]
    constructor
    · rintro ⟨next, ran, later⟩
      have absent := taken.1 _ _ ran
      rw [fresh.1 _ absent, Except.ok.injEq] at ran
      subst ran
      obtain ⟨others, distinct, listed⟩ := (ih fresh.2 taken.2).mp later
      have apart : ∀ other ∈ rest, key item ≠ key other ∧ start.get? (key other) = none := by
        intro other present
        have unknown := others other present
        rw [get?_insert] at unknown
        split at unknown
        · simp at unknown
        · rename_i different
          exact ⟨different, unknown⟩
      refine ⟨?_, ?_, ?_⟩
      · exact List.forall_mem_cons.mpr ⟨absent, fun other present => (apart other present).2⟩
      · rw [List.map_cons, List.nodup_cons]
        refine ⟨fun present => ?_, distinct⟩
        obtain ⟨other, listedOther, same⟩ := List.mem_map.mp present
        exact (apart other listedOther).1 same.symm
      · rw [listed, entries_insert_of_absent absent, List.map_cons, List.append_assoc,
          List.singleton_append]
    · rintro ⟨absent, distinct, listed⟩
      rw [List.forall_mem_cons] at absent
      rw [List.map_cons, List.nodup_cons] at distinct
      refine ⟨_, fresh.1 _ absent.1, (ih fresh.2 taken.2).mpr ⟨fun other present => ?_, distinct.2, ?_⟩⟩
      · have different : key item ≠ key other := fun same =>
          distinct.1 (same ▸ List.mem_map_of_mem present)
        rw [get?_insert, if_neg different]
        exact absent.2 other present
      · rw [listed, entries_insert_of_absent absent.1, List.map_cons, List.append_assoc,
          List.singleton_append]

/-- A run that enters a value for every item and fails at a key it knows succeeds when the keys are
distinct; the entries then follow in the order of the items. -/
theorem foldlM_insertNew_eq_ok_iff {step : Table κ α → ι → Except ε (Table κ α)} (key : ι → κ)
    (value : ι → α) {items : List ι}
    (fresh : ∀ item ∈ items, ∀ table, table.get? (key item) = none →
      step table item = .ok (table.insert (key item) (value item)))
    (taken : ∀ item ∈ items, ∀ table next, step table item = .ok next →
      table.get? (key item) = none)
    {final : Table κ α} :
    items.foldlM step .empty = .ok final ↔
      (items.map key).Nodup ∧ final.entries = items.map fun item => (key item, value item) := by
  rw [foldlM_insertNew_from key value fresh taken]
  simp only [get?_empty, implies_true, true_and, entries_empty, List.nil_append]

end InsertNew

section OfList

variable [DecidableEq κ]

theorem mem_keys_ofList {pairs : List (κ × α)} {key : κ} :
    key ∈ (ofList pairs).keys ↔ key ∈ pairs.map (·.1) := by
  suffices general : ∀ start : Table κ α,
      key ∈ (pairs.foldl (fun table pair => table.insert pair.1 pair.2) start).keys ↔
        key ∈ start.keys ∨ key ∈ pairs.map (·.1) by
    rw [ofList, general empty, keys_empty]
    simp only [List.not_mem_nil, false_or]
  induction pairs with
  | nil => simp
  | cons pair rest ih =>
    intro start
    rw [List.foldl_cons, ih, mem_keys_insert, List.map_cons, List.mem_cons, or_assoc, or_left_comm]

/-- Every entry of the table of a list is a pair of the list. -/
theorem mem_of_get?_ofList {pairs : List (κ × α)} {key : κ} {value : α}
    (found : (ofList pairs).get? key = some value) : (key, value) ∈ pairs := by
  suffices general : ∀ start : Table κ α,
      (pairs.foldl (fun table pair => table.insert pair.1 pair.2) start).get? key = some value →
        start.get? key = some value ∨ (key, value) ∈ pairs by
    rcases general empty found with none | listed
    · simp at none
    · exact listed
  clear found
  induction pairs with
  | nil => exact fun _ found => .inl found
  | cons pair rest ih =>
    intro start found
    rcases ih _ found with early | late
    · rw [get?_insert] at early
      split at early
      · rename_i same
        exact .inr (by simp [← same, ← Option.some.inj early])
      · exact .inl early
    · exact .inr (List.mem_cons_of_mem _ late)

/-- Pairs of distinct keys are the entries of their table. -/
theorem entries_ofList {pairs : List (κ × α)} (distinct : (pairs.map (·.1)).Nodup) :
    (ofList pairs).entries = pairs := by
  suffices general : ∀ start : Table κ α, (∀ pair ∈ pairs, start.get? pair.1 = none) →
      (pairs.foldl (fun table pair => table.insert pair.1 pair.2) start).entries = start.entries ++ pairs by
    rw [ofList, general empty (by simp), entries_empty, List.nil_append]
  induction pairs with
  | nil => simp
  | cons pair rest ih =>
    intro start absent
    obtain ⟨fresh, absent⟩ := List.forall_mem_cons.mp absent
    obtain ⟨apart, distinct⟩ := List.nodup_cons.mp distinct
    rw [List.foldl_cons, ih distinct, entries_insert_of_absent fresh, List.append_assoc,
      List.singleton_append]
    intro other listed
    have different : pair.1 ≠ other.1 := fun same => apart (List.mem_map.mpr ⟨other, listed, same.symm⟩)
    rw [get?_insert, if_neg different]
    exact absent other listed

end OfList

section Map

@[simp] theorem keys_mapValues (table : Table κ α) (change : κ → α → β) :
    (table.mapValues change).keys = table.keys := by
  simp [keys, mapValues]

theorem values_mapValues (table : Table κ α) (change : α → β) :
    (table.mapValues fun _ => change).values = table.values.map change := by
  simp [values, mapValues]

/-- Changing every value succeeds with the entries that have every key and its changed value. -/
theorem mapEntries_eq_ok_iff {change : κ → α → Except ε β} {entries : List (κ × α)}
    {changed : List (κ × β)} :
    mapEntries change entries = .ok changed ↔
      List.Forall₂ (fun entry result => result.1 = entry.1 ∧ change entry.1 entry.2 = .ok result.2)
        entries changed := by
  induction entries generalizing changed with
  | nil => cases changed <;> simp [mapEntries]
  | cons entry rest ih =>
    obtain ⟨key, value⟩ := entry
    cases ran : change key value with
    | error failure => cases changed <;> simp [mapEntries, ran]
    | ok result =>
      cases others : mapEntries change rest with
      | error failure => cases changed <;> simp [mapEntries, ran, others, ← ih]
      | ok later =>
        cases changed with
        | nil => simp [mapEntries, ran, others]
        | cons first tail =>
          simp only [mapEntries, ran, others, Except.ok.injEq, List.cons.injEq,
            List.forall₂_cons, ← ih, Prod.ext_iff, and_assoc]
          exact and_congr_left fun _ => eq_comm

theorem mapValuesM_eq_ok_iff {table : Table κ α} {change : κ → α → Except ε β}
    {changed : Table κ β} :
    table.mapValuesM change = .ok changed ↔ mapEntries change table.entries = .ok changed.entries := by
  unfold mapValuesM
  split
  · rename_i failure failed
    simp [failed]
  · rename_i entries success
    simp [success, Table.ext_iff]

theorem failure?_mapEntries (change : κ → α → Except ε β) (entries : List (κ × α)) :
    failure? (mapEntries change entries) = entries.findSome? fun entry => failure? (change entry.1 entry.2) := by
  induction entries with
  | nil => rfl
  | cons entry rest ih =>
    rw [List.findSome?_cons, ← ih, mapEntries]
    cases change entry.1 entry.2 with
    | error failure => rfl
    | ok value => cases mapEntries change rest <;> rfl

/-- Changing every value fails as the first entry does whose change fails. -/
theorem failure?_mapValuesM (table : Table κ α) (change : κ → α → Except ε β) :
    failure? (table.mapValuesM change) =
      table.entries.findSome? fun entry => failure? (change entry.1 entry.2) := by
  rw [← failure?_mapEntries]
  unfold mapValuesM
  split
  · rename_i failure failed
    rw [failed]
    rfl
  · rename_i entries success
    exact (congrArg failure? success).symm

theorem map_entries_mapValuesM (table : Table κ α) (change : κ → α → Except ε β) :
    (table.mapValuesM change).map (·.entries) = mapEntries change table.entries := by
  unfold mapValuesM
  split
  · rename_i failure failed
    rw [failed]
    rfl
  · rename_i entries success
    exact success.symm

theorem mapEntries_map {change changed : κ → α → Except ε β} {before : α → α} {after : β → β}
    (along : ∀ key value, changed key (before value) = (change key value).map after) (entries : List (κ × α)) :
    mapEntries changed (entries.map fun entry => (entry.1, before entry.2)) =
      (mapEntries change entries).map (·.map fun entry => (entry.1, after entry.2)) := by
  induction entries with
  | nil => rfl
  | cons entry rest ih =>
    simp only [List.map_cons, mapEntries, along, ih]
    cases change entry.1 entry.2 with
    | error failure => rfl
    | ok value => cases mapEntries change rest <;> rfl

/-- Values may be changed before or after a change that can fail. -/
theorem mapValuesM_mapValues {change changed : κ → α → Except ε β} {before : α → α} {after : β → β}
    (along : ∀ key value, changed key (before value) = (change key value).map after) (table : Table κ α) :
    (table.mapValues fun _ => before).mapValuesM changed =
      (table.mapValuesM change).map (·.mapValues fun _ => after) := by
  have entries : ((table.mapValues fun _ => before).mapValuesM changed).map (·.entries) =
      ((table.mapValuesM change).map (·.mapValues fun _ => after)).map (·.entries) :=
    calc ((table.mapValues fun _ => before).mapValuesM changed).map (·.entries)
      _ = mapEntries changed (table.entries.map fun entry => (entry.1, before entry.2)) :=
        map_entries_mapValuesM ..
      _ = ((table.mapValuesM change).map (·.entries)).map (·.map fun entry => (entry.1, after entry.2)) := by
        rw [mapEntries_map along, map_entries_mapValuesM]
      _ = ((table.mapValuesM change).map (·.mapValues fun _ => after)).map (·.entries) := by
        cases table.mapValuesM change <;> rfl
  exact eq_of_map_eq (fun left right => Table.ext) entries

theorem failsOnly_mapValuesM {permitted : ε → Prop} {table : Table κ α} {change : κ → α → Except ε β}
    (fails : ∀ key value, FailsOnly permitted (change key value)) :
    FailsOnly permitted (table.mapValuesM change) := by
  refine ⟨fun failure failed => ?_⟩
  rw [← failure?_eq_some_iff, failure?_mapValuesM] at failed
  obtain ⟨entry, _, failed⟩ := List.exists_of_findSome?_eq_some failed
  exact (fails entry.1 entry.2).permits failure (failure?_eq_some_iff.mp failed)

theorem exists_mapValuesM_eq_ok_iff {table : Table κ α} {change : κ → α → Except ε β} :
    (∃ changed, table.mapValuesM change = .ok changed) ↔
      ∃ entries, mapEntries change table.entries = .ok entries := by
  constructor
  · rintro ⟨changed, success⟩
    exact ⟨_, mapValuesM_eq_ok_iff.mp success⟩
  · rintro ⟨entries, success⟩
    refine ⟨⟨entries, ?_⟩, mapValuesM_eq_ok_iff.mpr success⟩
    rw [keys_mapEntries success]
    exact table.nodup

theorem keys_of_mapValuesM {table : Table κ α} {change : κ → α → Except ε β} {changed : Table κ β}
    (success : table.mapValuesM change = .ok changed) : changed.keys = table.keys :=
  keys_mapEntries (mapValuesM_eq_ok_iff.mp success)

variable [DecidableEq κ]

/-- Changing every value succeeds if it does for the value of every key. -/
theorem exists_mapValuesM_iff {table : Table κ α} {change : κ → α → Except ε β} :
    (∃ changed, table.mapValuesM change = .ok changed) ↔
      ∀ key value, table.get? key = some value → ∃ result, change key value = .ok result := by
  simp only [exists_mapValuesM_eq_ok_iff, mapEntries_eq_ok_iff, exists_forall₂_iff, Prod.forall,
    Prod.exists, get?_eq_some_iff]
  refine forall_congr' fun key => forall_congr' fun value => imp_congr_right fun _ => ?_
  exact ⟨fun ⟨_, result, _, ran⟩ => ⟨result, ran⟩, fun ⟨result, ran⟩ => ⟨key, result, rfl, ran⟩⟩

private theorem lookup_map {change : κ → α → β} {key : κ} (entries : List (κ × α)) :
    lookup key (entries.map fun entry => (entry.1, change entry.1 entry.2)) =
      (lookup key entries).map (change key) := by
  induction entries with
  | nil => rfl
  | cons entry rest ih =>
    simp only [List.map_cons, lookup]
    split
    · rename_i same
      subst same
      rfl
    · exact ih

@[simp] theorem get?_mapValues (table : Table κ α) (change : κ → α → β) (key : κ) :
    (table.mapValues change).get? key = (table.get? key).map (change key) :=
  lookup_map table.entries

theorem contains_mapValues (table : Table κ α) (change : κ → α → β) (key : κ) :
    (table.mapValues change).contains key = table.contains key := by
  rw [contains, contains, get?_mapValues, Option.isSome_map]

private theorem map_insertEntry {before : κ → κ → Bool} {change : κ → α → β} {key : κ} {value : α}
    (entries : List (κ × α)) :
    (insertEntry before key value entries).map (fun entry => (entry.1, change entry.1 entry.2)) =
      insertEntry before key (change key value)
        (entries.map fun entry => (entry.1, change entry.1 entry.2)) := by
  induction entries with
  | nil => rfl
  | cons entry rest ih =>
    simp only [insertEntry, List.map_cons, List.map_map, Function.comp_def] at ih ⊢
    split
    · rfl
    · split
      · rfl
      · rw [List.map_cons, ih]

/-- Values may be changed before or after an entry is made. -/
theorem mapValues_insert (table : Table κ α) (change : κ → α → β) (key : κ) (value : α) :
    (table.insert key value).mapValues change = (table.mapValues change).insert key (change key value) :=
  Table.ext (map_insertEntry table.entries)

theorem mapValues_insertSorted (before : κ → κ → Bool) (table : Table κ α) (change : κ → α → β) (key : κ)
    (value : α) :
    (table.insertSorted before key value).mapValues change =
      (table.mapValues change).insertSorted before key (change key value) :=
  Table.ext (map_insertEntry table.entries)

private theorem lookup_forall₂ {change : κ → α → Except ε β} {key : κ} {entries : List (κ × α)}
    {changed : List (κ × β)}
    (pairs : List.Forall₂ (fun entry result => result.1 = entry.1 ∧
      change entry.1 entry.2 = .ok result.2) entries changed) :
    (lookup key entries = none ∧ lookup key changed = none) ∨
      ∃ value result, lookup key entries = some value ∧ lookup key changed = some result ∧
        change key value = .ok result := by
  induction pairs with
  | nil => exact .inl ⟨rfl, rfl⟩
  | cons ran _ ih =>
    obtain ⟨same, ran⟩ := ran
    simp only [lookup, same]
    split
    · rename_i hit
      subst hit
      exact .inr ⟨_, _, rfl, rfl, ran⟩
    · exact ih

/-- Where a change of every value succeeds, each key finds its changed value. -/
theorem get?_of_mapValuesM {table : Table κ α} {change : κ → α → Except ε β} {changed : Table κ β}
    (success : table.mapValuesM change = .ok changed) (key : κ) :
    (table.get? key = none ∧ changed.get? key = none) ∨
      ∃ value result, table.get? key = some value ∧ changed.get? key = some result ∧
        change key value = .ok result :=
  lookup_forall₂ (mapEntries_eq_ok_iff.mp (mapValuesM_eq_ok_iff.mp success))

end Map

end ClassModel.Table
