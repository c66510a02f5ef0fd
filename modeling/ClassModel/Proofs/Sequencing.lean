import Mathlib.Data.List.Forall2
import Mathlib.Data.List.Nodup
import Mathlib.Data.List.Perm.Basic

/-! # Runs that may fail

The parts of an analysis are sequences of steps of which the first failure counts. These lemmas
take a successful run apart: into its two halves, into the result of every item, or into an
invariant that every step keeps.
-/

namespace ClassModel

variable {α β σ ε ε' : Type}

/-- A sequence of two steps succeeds when both do. -/
theorem bind_eq_ok_iff {first : Except ε α} {next : α → Except ε β} {result : β} :
    (first >>= next) = .ok result ↔ ∃ value, first = .ok value ∧ next value = .ok result := by
  cases first <;> simp [bind, Except.bind]

/-- A sequence of two steps fails where the first one does, or else where the second one does. -/
theorem bind_eq_error_iff {first : Except ε α} {next : α → Except ε β} {failure : ε} :
    (first >>= next) = .error failure ↔
      first = .error failure ∨ ∃ value, first = .ok value ∧ next value = .error failure := by
  cases first <;> simp [bind, Except.bind]

/-- What follows a step counts only for the values that the step can have. -/
theorem bind_congr_of_ok {first : Except ε α} {next other : α → Except ε β}
    (same : ∀ value, first = .ok value → next value = other value) : (first >>= next) = (first >>= other) := by
  cases first with
  | error failure => rfl
  | ok value => exact same value rfl

/-- A change of every result of the second step is a change of the sequence. -/
theorem bind_eq_map_bind {γ : Type} {first : Except ε α} {next : α → Except ε β} {changed : α → Except ε γ}
    {change : β → γ} (along : ∀ value, changed value = (next value).map change) :
    (first >>= changed) = (first >>= next).map change := by
  cases first with
  | error failure => rfl
  | ok value => exact along value

/-- A change of the result of the first step can be left to the second one. -/
theorem map_bind_eq {γ : Type} {first : Except ε α} {change : α → β} {next : β → Except ε γ} :
    (first.map change >>= next) = first >>= fun value => next (change value) := by
  cases first <;> rfl

theorem map_eq_ok_iff {first : Except ε α} {change : α → β} {result : β} :
    first.map change = .ok result ↔ ∃ value, first = .ok value ∧ change value = result := by
  cases first <;> simp [Except.map]

/-- Two runs are equal if their results are once they are changed in a way that loses nothing. -/
theorem eq_of_map_eq {first second : Except ε α} {change : α → β}
    (injective : ∀ left right, change left = change right → left = right)
    (same : first.map change = second.map change) : first = second := by
  cases first <;> cases second <;> simp only [Except.map, Except.error.injEq, Except.ok.injEq, reduceCtorEq] at same
  · exact congrArg _ same
  · exact congrArg _ (injective _ _ same)

theorem mapError_eq_ok_iff {first : Except ε α} {change : ε → ε'} {result : α} :
    first.mapError change = .ok result ↔ first = .ok result := by
  cases first <;> simp [Except.mapError]

theorem mapError_eq_error_iff {first : Except ε α} {change : ε → ε'} {failure : ε'} :
    first.mapError change = .error failure ↔ ∃ cause, first = .error cause ∧ change cause = failure := by
  cases first <;> simp [Except.mapError]

theorem map_eq_error_iff {first : Except ε α} {change : α → β} {failure : ε} :
    first.map change = .error failure ↔ first = .error failure := by
  cases first <;> simp [Except.map]

theorem toOption_eq_some_iff {first : Except ε α} {result : α} :
    first.toOption = some result ↔ first = .ok result := by
  cases first <;> simp [Except.toOption]

/-- The failure of a run, if it fails. -/
def failure? : Except ε α → Option ε
  | .error failure => some failure
  | .ok _ => none

theorem failure?_eq_some_iff {run : Except ε α} {failure : ε} :
    failure? run = some failure ↔ run = .error failure := by
  cases run <;> simp [failure?]

theorem failure?_eq_none_iff {run : Except ε α} : failure? run = none ↔ ∃ result, run = .ok result := by
  cases run <;> simp [failure?]

/-- Where the second step fails alike for every value, a sequence fails by the first step or else by it. -/
theorem failure?_bind {first : Except ε α} {next : α → Except ε β} {later : Option ε}
    (alike : ∀ value, failure? (next value) = later) :
    failure? (first >>= next) = (failure? first).or later := by
  cases first with
  | error failure => rfl
  | ok value => exact alike value

/-- A list of steps fails as the first item does that fails. -/
theorem failure?_mapM (step : α → Except ε β) (items : List α) :
    failure? (items.mapM step) = items.findSome? fun item => failure? (step item) := by
  induction items with
  | nil => rfl
  | cons item rest ih =>
    have gathers : ∀ result, failure? (rest.mapM step >>= fun others => pure (result :: others)) =
        failure? (rest.mapM step) := by
      intro result
      have ends : ∀ others : List β, failure? (pure (result :: others) : Except ε _) = none := fun _ => rfl
      rw [failure?_bind ends, Option.or_none]
    rw [List.mapM_cons, failure?_bind fun result => (gathers result).trans ih, List.findSome?_cons]
    cases failure? (step item) <;> rfl

/-- Where the state does not decide whether a step fails, a run fails as the first item does that fails. -/
theorem failure?_foldlM {step : σ → α → Except ε σ} {fault : α → Option ε}
    (alike : ∀ state item, failure? (step state item) = fault item) (items : List α) (start : σ) :
    failure? (items.foldlM step start) = items.findSome? fault := by
  induction items generalizing start with
  | nil => rfl
  | cons item rest ih =>
    rw [List.foldlM_cons, failure?_bind (fun next => ih next), alike, List.findSome?_cons]
    cases fault item <;> rfl

theorem findSome?_congr {find other : α → Option β} {items : List α}
    (alike : ∀ item ∈ items, find item = other item) : items.findSome? find = items.findSome? other := by
  induction items with
  | nil => rfl
  | cons item rest ih =>
    rw [List.forall_mem_cons] at alike
    rw [List.findSome?_cons, List.findSome?_cons, alike.1, ih alike.2]

theorem findSome?_flatMap {γ : Type} (items : List α) (view : α → List β) (find : β → Option γ) :
    (items.flatMap view).findSome? find = items.findSome? fun item => (view item).findSome? find := by
  induction items with
  | nil => rfl
  | cons item rest ih =>
    rw [List.flatMap_cons, List.findSome?_append, ih, List.findSome?_cons]
    cases (view item).findSome? find <;> rfl

/-- A list of steps succeeds when every item does, with the list of their results. -/
theorem mapM_eq_ok_iff {step : α → Except ε β} {items : List α} {results : List β} :
    items.mapM step = .ok results ↔
      List.Forall₂ (fun item result => step item = .ok result) items results := by
  induction items generalizing results with
  | nil => cases results <;> simp [pure, Except.pure]
  | cons item rest ih =>
    rw [List.mapM_cons, bind_eq_ok_iff]
    constructor
    · rintro ⟨value, ran, later⟩
      obtain ⟨values, others, same⟩ := bind_eq_ok_iff.mp later
      cases same
      exact .cons ran (ih.mp others)
    · rintro (_ | ⟨ran, others⟩)
      exact ⟨_, ran, bind_eq_ok_iff.mpr ⟨_, ih.mpr others, rfl⟩⟩

/-- A list of steps fails at its first item that fails. -/
theorem mapM_eq_error_iff {step : α → Except ε β} {items : List α} {failure : ε} :
    items.mapM step = .error failure ↔ ∃ before item after, items = before ++ item :: after ∧
      (∀ earlier ∈ before, ∃ result, step earlier = .ok result) ∧ step item = .error failure := by
  rw [← failure?_eq_some_iff, failure?_mapM, List.findSome?_eq_some_iff]
  simp only [failure?_eq_some_iff, failure?_eq_none_iff, and_comm]

theorem exists_forall₂_iff {R : α → β → Prop} {items : List α} :
    (∃ results, List.Forall₂ R items results) ↔ ∀ item ∈ items, ∃ result, R item result := by
  induction items with
  | nil => exact ⟨fun _ item present => by simp at present, fun _ => ⟨[], .nil⟩⟩
  | cons item rest ih =>
    rw [List.forall_mem_cons, ← ih]
    constructor
    · rintro ⟨_, _ | ⟨related, others⟩⟩
      exact ⟨⟨_, related⟩, _, others⟩
    · rintro ⟨⟨result, related⟩, results, others⟩
      exact ⟨result :: results, .cons related others⟩

/-- A change of every result can be made before or after a list of steps. -/
theorem mapM_map {γ : Type} {step : α → Except ε β} {changed : α → Except ε γ} {change : β → γ}
    (along : ∀ item, changed item = (step item).map change) (items : List α) :
    items.mapM changed = (items.mapM step).map (·.map change) := by
  induction items with
  | nil => rfl
  | cons item rest ih =>
    rw [List.mapM_cons, List.mapM_cons, along, ih]
    cases step item with
    | error failure => rfl
    | ok result => cases rest.mapM step <;> rfl

theorem exists_left_of_forall₂ {R : α → β → Prop} {items : List α} {results : List β}
    (pairs : List.Forall₂ R items results) {result : β} (present : result ∈ results) :
    ∃ item ∈ items, R item result := by
  induction pairs with
  | nil => simp at present
  | cons related _ ih =>
    rcases List.mem_cons.mp present with rfl | later
    · exact ⟨_, List.mem_cons_self .., related⟩
    · obtain ⟨item, listed, related⟩ := ih later
      exact ⟨item, List.mem_cons_of_mem _ listed, related⟩

/-- What holds of related items of two lists relates the lists. -/
theorem forall₂_imp_of_mem {R S : α → β → Prop} {items : List α} {results : List β}
    (pairs : List.Forall₂ R items results)
    (implies : ∀ item ∈ items, ∀ result ∈ results, R item result → S item result) :
    List.Forall₂ S items results := by
  induction pairs with
  | nil => exact .nil
  | cons related _ ih =>
    refine .cons (implies _ (List.mem_cons_self ..) _ (List.mem_cons_self ..) related) (ih ?_)
    exact fun item listed result present =>
      implies item (List.mem_cons_of_mem _ listed) result (List.mem_cons_of_mem _ present)

theorem forall₂_congr_of_mem {R S : α → β → Prop} {items : List α} {results : List β}
    (alike : ∀ item ∈ items, ∀ result, R item result ↔ S item result) :
    List.Forall₂ R items results ↔ List.Forall₂ S items results :=
  ⟨fun pairs => forall₂_imp_of_mem pairs fun item listed result _ => (alike item listed result).mp,
    fun pairs => forall₂_imp_of_mem pairs fun item listed result _ => (alike item listed result).mpr⟩

/-- Where every two paired items have a counterpart, the lists pair up with a list of counterparts. -/
theorem exists_forall₂_of_forall₂ {γ : Type} {R : α → β → Prop} {S : α → γ → Prop} {T : β → γ → Prop}
    {items : List α} {results : List β} (pairs : List.Forall₂ R items results)
    (each : ∀ item ∈ items, ∀ result ∈ results, R item result → ∃ other, S item other ∧ T result other) :
    ∃ others, List.Forall₂ S items others ∧ List.Forall₂ T results others := by
  induction pairs with
  | nil => exact ⟨[], .nil, .nil⟩
  | cons related _ ih =>
    obtain ⟨other, left, right⟩ := each _ (List.mem_cons_self ..) _ (List.mem_cons_self ..) related
    obtain ⟨others, lefts, rights⟩ := ih fun item listed result present =>
      each item (List.mem_cons_of_mem _ listed) result (List.mem_cons_of_mem _ present)
    exact ⟨other :: others, .cons left lefts, .cons right rights⟩

/-- Two lists that pair up with a third pair up with each other. -/
theorem forall₂_of_common {γ : Type} {R : α → γ → Prop} {S : β → γ → Prop} {items : List α}
    {others : List β} {results : List γ} (left : List.Forall₂ R items results)
    (right : List.Forall₂ S others results) :
    List.Forall₂ (fun item other => ∃ result, R item result ∧ S other result) items others := by
  induction left generalizing others with
  | nil =>
    cases right
    exact .nil
  | cons related _ ih =>
    cases right with
    | cons also rest => exact .cons ⟨_, related, also⟩ (ih rest)

/-- Two relations that both pair up two lists do so together. -/
theorem forall₂_and {R S : α → β → Prop} {items : List α} {results : List β}
    (first : List.Forall₂ R items results) (second : List.Forall₂ S items results) :
    List.Forall₂ (fun item result => R item result ∧ S item result) items results := by
  induction first with
  | nil => exact .nil
  | cons related _ ih =>
    cases second with
    | cons also rest => exact .cons ⟨related, also⟩ (ih rest)

/-- Paired items that list the same give the same in all. -/
theorem mem_flatMap_iff_of_forall₂ {γ : Type} {R : α → β → Prop} {items : List α} {results : List β}
    {view : α → List γ} {viewResult : β → List γ} (pairs : List.Forall₂ R items results)
    (alike : ∀ item result, R item result → ∀ value, value ∈ view item ↔ value ∈ viewResult result)
    (value : γ) :
    value ∈ items.flatMap view ↔ value ∈ results.flatMap viewResult := by
  induction pairs with
  | nil => rfl
  | cons related _ ih =>
    rw [List.flatMap_cons, List.flatMap_cons, List.mem_append, List.mem_append, alike _ _ related, ih]

/-- Two lists whose items look alike pair by pair look alike. -/
theorem map_eq_of_forall₂ {γ : Type} {R : α → β → Prop} {items : List α} {results : List β}
    {view : α → γ} {viewResult : β → γ} (pairs : List.Forall₂ R items results)
    (alike : ∀ item result, R item result → viewResult result = view item) :
    results.map viewResult = items.map view := by
  induction pairs with
  | nil => rfl
  | cons related _ ih => rw [List.map_cons, List.map_cons, alike _ _ related, ih]

/-- In two lists that pair up, searches for what paired items are alike in find a pair or nothing. -/
theorem find?_rel_of_forall₂ {R : α → β → Prop} {items : List α} {results : List β} {sought : α → Bool}
    {soughtResult : β → Bool} (pairs : List.Forall₂ R items results)
    (alike : ∀ item result, R item result → sought item = soughtResult result) :
    Option.Rel R (items.find? sought) (results.find? soughtResult) := by
  induction pairs with
  | nil => exact .none
  | cons related _ ih =>
    rw [List.find?_cons, List.find?_cons, alike _ _ related]
    split
    · exact .some related
    · exact ih

theorem rel_bind {γ δ : Type} {R : α → β → Prop} {S : γ → δ → Prop} {item : Option α} {result : Option β}
    {next : α → Option γ} {nextResult : β → Option δ} (related : Option.Rel R item result)
    (keeps : ∀ item result, R item result → Option.Rel S (next item) (nextResult result)) :
    Option.Rel S (item.bind next) (result.bind nextResult) := by
  cases related with
  | none => exact .none
  | some related => exact keeps _ _ related

/-- A search that gives one result for each item of a kind, and none for others, gives the results of the items
of the kind in order. -/
theorem filterMap_eq_iff_forall₂ {find : α → Option β} {kind : α → Bool} {items : List α}
    (finds : ∀ item ∈ items, (find item).isSome = kind item) {results : List β} :
    items.filterMap find = results ↔
      List.Forall₂ (fun item result => find item = some result) (items.filter kind) results := by
  induction items generalizing results with
  | nil => simp [eq_comm]
  | cons item rest ih =>
    obtain ⟨here, later⟩ := List.forall_mem_cons.mp finds
    cases found : find item with
    | none =>
      rw [found] at here
      rw [List.filterMap_cons_none found, List.filter_cons_of_neg (by simp [← here]), ih later]
    | some result =>
      rw [found] at here
      rw [List.filterMap_cons_some found, List.filter_cons_of_pos here.symm, List.forall₂_cons_left_iff]
      simp only [← ih later, found, Option.some.injEq]
      constructor
      · rintro rfl
        exact ⟨result, _, rfl, rfl, rfl⟩
      · rintro ⟨_, _, rfl, rfl, rfl⟩
        rfl

/-- What every step of a run keeps holds at its end. -/
theorem foldlM_invariant {step : σ → α → Except ε σ} {items : List α} {start final : σ}
    (motive : σ → Prop) (success : items.foldlM step start = .ok final) (holds : motive start)
    (keeps : ∀ item ∈ items, ∀ state next, motive state → step state item = .ok next → motive next) :
    motive final := by
  induction items generalizing start with
  | nil =>
    cases success
    exact holds
  | cons item rest ih =>
    rw [List.foldlM_cons] at success
    obtain ⟨next, ran, later⟩ := bind_eq_ok_iff.mp success
    exact ih later (keeps item (List.mem_cons_self ..) start next holds ran)
      fun other listed => keeps other (List.mem_cons_of_mem _ listed)

/-- A run of which every step appends to a list appends all of it in order. -/
theorem foldlM_appends {γ : Type} {step : σ → α → Except ε σ} {items : List α} {start final : σ}
    (view : σ → List γ) (added : α → List γ) (success : items.foldlM step start = .ok final)
    (appends : ∀ item ∈ items, ∀ state next, step state item = .ok next →
      view next = view state ++ added item) :
    view final = view start ++ items.flatMap added := by
  induction items generalizing start with
  | nil =>
    cases success
    simp
  | cons item rest ih =>
    rw [List.foldlM_cons] at success
    obtain ⟨next, ran, later⟩ := bind_eq_ok_iff.mp success
    rw [ih later fun other listed => appends other (List.mem_cons_of_mem _ listed),
      appends item (List.mem_cons_self ..) start next ran, List.flatMap_cons, List.append_assoc]

/-- A change of the state that every step goes along with can be made before or after a run. -/
theorem foldlM_map {τ : Type} {step : σ → α → Except ε σ} {changed : τ → α → Except ε τ} {change : σ → τ}
    (along : ∀ state item, changed (change state) item = (step state item).map change) (items : List α)
    (start : σ) : items.foldlM changed (change start) = (items.foldlM step start).map change := by
  induction items generalizing start with
  | nil => rfl
  | cons item rest ih =>
    rw [List.foldlM_cons, List.foldlM_cons, along]
    cases step start item with
    | error failure => rfl
    | ok next => exact ih next

/-- What a run keeps of the items that it has gone through holds of all items in the end. -/
theorem foldlM_tracks {step : σ → α → Except ε σ} (motive : List α → σ → Prop) {done items : List α}
    {start final : σ} (success : items.foldlM step start = .ok final) (holds : motive done start)
    (keeps : ∀ done item state next, motive done state → step state item = .ok next →
      motive (done ++ [item]) next) :
    motive (done ++ items) final := by
  induction items generalizing done start with
  | nil =>
    cases success
    rwa [List.append_nil]
  | cons item rest ih =>
    rw [List.foldlM_cons] at success
    obtain ⟨next, ran, later⟩ := bind_eq_ok_iff.mp success
    rw [List.append_cons]
    exact ih later (keeps done item start next holds ran)

/-- If every step of a run can be gone along with, so can the run. -/
theorem foldlM_simulates {τ : Type} {step : σ → α → Except ε σ} {along : τ → α → Except ε' τ} {items : List α}
    (motive : List α → σ → τ → Prop) {start final : σ} {outset : τ}
    (success : items.foldlM step start = .ok final) (holds : motive [] start outset)
    (keeps : ∀ before item after, items = before ++ item :: after → ∀ state peer next,
      motive before state peer → step state item = .ok next →
        ∃ result, along peer item = .ok result ∧ motive (before ++ [item]) next result) :
    ∃ result, items.foldlM along outset = .ok result ∧ motive items final result := by
  suffices general : ∀ (rest before : List α) (state : σ) (peer : τ), items = before ++ rest →
      motive before state peer → rest.foldlM step state = .ok final →
      ∃ result, rest.foldlM along peer = .ok result ∧ motive items final result from
    general items [] start outset rfl holds success
  intro rest
  induction rest with
  | nil =>
    intro before state peer listed related ran
    cases ran
    exact ⟨peer, rfl, by rwa [listed, List.append_nil]⟩
  | cons item rest ih =>
    intro before state peer listed related ran
    rw [List.foldlM_cons] at ran
    obtain ⟨next, stepped, later⟩ := bind_eq_ok_iff.mp ran
    obtain ⟨result, went, remains⟩ := keeps before item rest listed state peer next related stepped
    obtain ⟨last, finished, ends⟩ := ih (before ++ [item]) next result (by simp [listed]) remains later
    rw [List.foldlM_cons]
    exact ⟨last, bind_eq_ok_iff.mpr ⟨result, went, finished⟩, ends⟩

/-- A run fails where a step does, after a run over the items before. -/
theorem foldlM_eq_error_iff {step : σ → α → Except ε σ} {items : List α} {start : σ} {failure : ε} :
    items.foldlM step start = .error failure ↔ ∃ before item after state,
      items = before ++ item :: after ∧ before.foldlM step start = .ok state ∧
        step state item = .error failure := by
  induction items generalizing start with
  | nil => simp [pure, Except.pure]
  | cons first rest ih =>
    rw [List.foldlM_cons, bind_eq_error_iff]
    constructor
    · rintro (failed | ⟨next, ran, later⟩)
      · exact ⟨[], first, rest, start, rfl, rfl, failed⟩
      · obtain ⟨before, item, after, state, rfl, ran', failed⟩ := ih.mp later
        refine ⟨first :: before, item, after, state, rfl, ?_, failed⟩
        rw [List.foldlM_cons, ran]
        exact ran'
    · rintro ⟨before, item, after, state, listed, ran, failed⟩
      rcases List.cons_eq_append_iff.mp listed with ⟨rfl, same⟩ | ⟨others, rfl, remain⟩
      · cases same
        cases ran
        exact .inl failed
      · rw [List.foldlM_cons, bind_eq_ok_iff] at ran
        obtain ⟨next, ran, later⟩ := ran
        exact .inr ⟨next, ran, ih.mpr ⟨others, item, after, state, remain, later, failed⟩⟩

/-- Whether a run fails in permitted ways only. -/
structure FailsOnly (permitted : ε → Prop) (run : Except ε α) : Prop where
  permits : ∀ failure, run = .error failure → permitted failure

namespace FailsOnly

variable {permitted : ε → Prop}

theorem ok (value : α) : FailsOnly permitted (.ok value) :=
  ⟨nofun⟩

theorem error {failure : ε} (may : permitted failure) : FailsOnly permitted (.error failure : Except ε α) :=
  ⟨fun _ failed => Except.error.inj failed ▸ may⟩

theorem mono {allowed : ε → Prop} {run : Except ε α} (fails : FailsOnly permitted run)
    (weaker : ∀ failure, permitted failure → allowed failure) : FailsOnly allowed run :=
  ⟨fun failure failed => weaker failure (fails.permits failure failed)⟩

/-- What follows a step counts only for the values that the step can have. -/
theorem bind_of_ok {first : Except ε α} {next : α → Except ε β} (fails : FailsOnly permitted first)
    (later : ∀ value, first = .ok value → FailsOnly permitted (next value)) :
    FailsOnly permitted (first >>= next) := by
  refine ⟨fun failure failed => ?_⟩
  rcases bind_eq_error_iff.mp failed with failed | ⟨value, ran, failed⟩
  · exact fails.permits failure failed
  · exact (later value ran).permits failure failed

theorem bind {first : Except ε α} {next : α → Except ε β} (fails : FailsOnly permitted first)
    (later : ∀ value, FailsOnly permitted (next value)) : FailsOnly permitted (first >>= next) :=
  fails.bind_of_ok fun value _ => later value

theorem map {first : Except ε α} (fails : FailsOnly permitted first) (change : α → β) :
    FailsOnly permitted (first.map change) := by
  cases first with
  | ok value => exact .ok _
  | error failure => exact .error (fails.permits failure rfl)

theorem mapM {items : List α} {step : α → Except ε β} (fails : ∀ item ∈ items, FailsOnly permitted (step item)) :
    FailsOnly permitted (items.mapM step) := by
  induction items with
  | nil => exact .ok []
  | cons item rest ih =>
    obtain ⟨here, later⟩ := List.forall_mem_cons.mp fails
    rw [List.mapM_cons]
    exact here.bind fun _ => (ih later).bind fun _ => .ok _

/-- A step counts only for the states that the steps before it lead to. -/
theorem foldlM_of_invariant {items : List α} {step : σ → α → Except ε σ} {motive : σ → Prop}
    (fails : ∀ state, motive state → ∀ item ∈ items, FailsOnly permitted (step state item))
    (keeps : ∀ item ∈ items, ∀ state next, motive state → step state item = .ok next → motive next)
    {start : σ} (holds : motive start) : FailsOnly permitted (items.foldlM step start) := by
  refine ⟨fun failure failed => ?_⟩
  obtain ⟨before, item, after, state, rfl, ran, failed⟩ := foldlM_eq_error_iff.mp failed
  have reached : motive state :=
    foldlM_invariant motive ran holds fun other listed => keeps other (by simp [listed])
  exact (fails state reached item (by simp)).permits failure failed

theorem foldlM {items : List α} {step : σ → α → Except ε σ}
    (fails : ∀ state, ∀ item ∈ items, FailsOnly permitted (step state item)) (start : σ) :
    FailsOnly permitted (items.foldlM step start) :=
  foldlM_of_invariant (fun state _ => fails state) (fun _ _ _ _ _ _ => trivial) (trivial : True)

end FailsOnly

/-- What every successful step gives of its item holds of all items of a successful run. -/
theorem forall_of_foldlM {step : σ → α → Except ε σ} {holds : α → Prop} {items : List α} {start final : σ}
    (success : items.foldlM step start = .ok final)
    (gives : ∀ item ∈ items, ∀ state next, step state item = .ok next → holds item) :
    ∀ item ∈ items, holds item := by
  induction items generalizing start with
  | nil => simp
  | cons item rest ih =>
    rw [List.foldlM_cons] at success
    obtain ⟨next, ran, later⟩ := bind_eq_ok_iff.mp success
    rw [List.forall_mem_cons] at gives ⊢
    exact ⟨gives.1 start next ran, ih later gives.2⟩

/-- A run succeeds if every item fits those before it. -/
theorem exists_foldlM_eq_ok_iff {step : σ → α → Except ε σ} (items : List α)
    (motive : List α → σ → Prop) (fits : List α → α → Prop) {done : List α} {start : σ}
    (holds : motive done start)
    (runs : ∀ done item state, motive done state →
      ((∃ next, step state item = .ok next) ↔ fits done item))
    (keeps : ∀ done item state next, motive done state → step state item = .ok next →
      motive (done ++ [item]) next) :
    (∃ final, items.foldlM step start = .ok final) ↔
      ∀ before item after, items = before ++ item :: after → fits (done ++ before) item := by
  induction items generalizing done start with
  | nil => simp [pure, Except.pure]
  | cons first rest ih =>
    have split : (∃ final, (first :: rest).foldlM step start = .ok final) ↔
        ∃ next, step start first = .ok next ∧ ∃ final, rest.foldlM step next = .ok final := by
      simp only [List.foldlM_cons, bind_eq_ok_iff]
      exact ⟨fun ⟨final, next, ran, later⟩ => ⟨next, ran, final, later⟩,
        fun ⟨next, ran, final, later⟩ => ⟨final, next, ran, later⟩⟩
    rw [split]
    constructor
    · rintro ⟨next, ran, final, later⟩ before item after listed
      rcases List.cons_eq_append_iff.mp listed with ⟨rfl, same⟩ | ⟨others, rfl, remain⟩
      · cases same
        rw [List.append_nil]
        exact (runs done first start holds).mp ⟨next, ran⟩
      · have fit := (ih (keeps done first start next holds ran)).mp ⟨final, later⟩ others item after remain
        rwa [List.append_assoc] at fit
    · intro fit
      have here := fit [] first rest rfl
      rw [List.append_nil] at here
      obtain ⟨next, ran⟩ := (runs done first start holds).mpr here
      refine ⟨next, ran, (ih (keeps done first start next holds ran)).mpr ?_⟩
      intro before item after listed
      rw [List.append_assoc]
      exact fit (first :: before) item after (by rw [listed]; rfl)

/-- What every step of a run keeps holds at its end. -/
theorem foldl_invariant {step : σ → α → σ} {items : List α} {start : σ} (motive : σ → Prop)
    (holds : motive start)
    (keeps : ∀ item ∈ items, ∀ state, motive state → motive (step state item)) :
    motive (items.foldl step start) := by
  induction items generalizing start with
  | nil => exact holds
  | cons item rest ih =>
    exact ih (keeps item (List.mem_cons_self ..) start holds)
      fun other listed => keeps other (List.mem_cons_of_mem _ listed)

/-- Two runs of which every step of the one commutes with every step of the other can be made in
either order. -/
theorem foldl_comm {step : σ → α → σ} {first second : List α}
    (commute : ∀ item ∈ first, ∀ other ∈ second, ∀ state,
      step (step state item) other = step (step state other) item) (start : σ) :
    second.foldl step (first.foldl step start) = first.foldl step (second.foldl step start) := by
  have past : ∀ item ∈ first, ∀ start,
      second.foldl step (step start item) = step (second.foldl step start) item := by
    intro item listed start
    have others := commute item listed
    clear commute
    induction second generalizing start with
    | nil => rfl
    | cons other rest ih =>
      rw [List.forall_mem_cons] at others
      rw [List.foldl_cons, List.foldl_cons, others.1, ih _ others.2]
  clear commute
  induction first generalizing start with
  | nil => rfl
  | cons item rest ih =>
    rw [List.forall_mem_cons] at past
    rw [List.foldl_cons, List.foldl_cons, ih _ past.2, past.1]

/-- Adding an item unless it is there adds it. -/
theorem mem_append_unless [BEq α] [LawfulBEq α] {items : List α} {item other : α} :
    other ∈ (if items.contains item then items else items ++ [item]) ↔
      other ∈ items ∨ other = item := by
  split
  · rename_i known
    refine ⟨.inl, ?_⟩
    rintro (present | rfl)
    · exact present
    · exact List.contains_iff_mem.mp known
  · rw [List.mem_append, List.mem_singleton]

/-- Of items told apart by a view a search for one finds that one. -/
theorem find?_eq_of_nodup_map {κ : Type} [DecidableEq κ] {items : List α} {view : α → κ}
    (distinct : (items.map view).Nodup) {item : α} (present : item ∈ items) {key : κ}
    (named : view item = key) : items.find? (fun other => decide (view other = key)) = some item := by
  cases found : items.find? (fun other => decide (view other = key)) with
  | none => exact absurd (decide_eq_true named) (List.find?_eq_none.mp found item present)
  | some other =>
    have same : view other = key := by simpa using List.find?_some found
    rw [List.inj_on_of_nodup_map distinct (List.mem_of_find?_eq_some found) present (same.trans named.symm)]

theorem find?_eq_some_iff_of_nodup_map {κ : Type} [DecidableEq κ] {items : List α} {view : α → κ}
    (distinct : (items.map view).Nodup) {item : α} {key : κ} :
    items.find? (fun other => decide (view other = key)) = some item ↔ item ∈ items ∧ view item = key := by
  constructor
  · intro found
    exact ⟨List.mem_of_find?_eq_some found, by simpa using List.find?_some found⟩
  · rintro ⟨present, named⟩
    exact find?_eq_of_nodup_map distinct present named

/-- A list without repeats is one item if the item is all that it has. -/
theorem eq_singleton_iff_of_nodup {items : List α} (distinct : items.Nodup) {only : α} :
    items = [only] ↔ ∀ item, item ∈ items ↔ item = only := by
  rw [← List.perm_singleton, List.perm_ext_iff_of_nodup distinct (List.nodup_singleton only)]
  simp only [List.mem_singleton]

/-- Leaving repeats out gives a list without repeats. -/
theorem nodup_eraseDups [BEq α] [LawfulBEq α] (items : List α) : items.eraseDups.Nodup := by
  induction bound : items.length using Nat.strongRecOn generalizing items with
  | ind length ih =>
    cases items with
    | nil => simp
    | cons first rest =>
      rw [List.eraseDups_cons, List.nodup_cons]
      refine ⟨fun present => ?_, ih _ ?_ _ rfl⟩
      · simpa using List.mem_eraseDups.mp present
      · rw [← bound]
        exact Nat.lt_succ_of_le (List.length_filter_le ..)

/-- Of a list without repeats nothing is left out. -/
theorem eraseDups_of_nodup [BEq α] [LawfulBEq α] {items : List α} (distinct : items.Nodup) :
    items.eraseDups = items := by
  induction items with
  | nil => rfl
  | cons first rest ih =>
    obtain ⟨absent, distinct⟩ := List.nodup_cons.mp distinct
    have others : rest.filter (fun item => !item == first) = rest :=
      List.filter_eq_self.mpr fun item present => by
        have different : item ≠ first := fun same => absent (same ▸ present)
        simp [different]
    rw [List.eraseDups_cons, others, ih distinct]

/-- With repeats left out, a further item comes last unless it is there. -/
theorem eraseDups_concat [BEq α] [LawfulBEq α] (items : List α) (item : α) [Decidable (item ∈ items)] :
    (items ++ [item]).eraseDups = if item ∈ items then items.eraseDups else items.eraseDups ++ [item] := by
  rw [List.eraseDups_append]
  split
  · rename_i known
    simp [List.removeAll, known]
  · rename_i new
    simp [List.removeAll, new, List.eraseDups_cons]

end ClassModel
