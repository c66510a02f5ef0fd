import ClassModel.Analysis.StateTables
import ClassModel.Proofs.Tables

/-! # State tables in full

A state model has a complete form exactly if the names of its events and of its states are distinct,
everything that its states mention is declared, no state lists an event twice and no event creates in two
states. The complete form is that of its states one by one: each answers a listed event as it lists it, and
an event that it does not list cannot happen.
-/

namespace ClassModel

theorem firstRepeat?_eq_none_iff {seen names : List Name} :
    firstRepeat? seen names = none ↔ names.Nodup ∧ ∀ name ∈ names, name ∉ seen := by
  induction names generalizing seen with
  | nil => simp [firstRepeat?]
  | cons name rest ih =>
    rw [firstRepeat?, List.nodup_cons, List.forall_mem_cons]
    by_cases known : name ∈ seen
    · simp [known]
    · simp only [known, ↓reduceIte, ih, List.mem_append, List.mem_singleton, not_or, not_false_eq_true,
        true_and]
      constructor
      · rintro ⟨distinct, fresh⟩
        exact ⟨⟨fun present => (fresh name present).2 rfl, distinct⟩, fun other listed => (fresh other listed).1⟩
      · rintro ⟨⟨apart, distinct⟩, fresh⟩
        exact ⟨distinct, fun other listed => ⟨fresh other listed, fun same => apart (same ▸ listed)⟩⟩

/-- No name occurs again exactly if all are distinct. -/
theorem firstRepeat?_nil_eq_none_iff {names : List Name} : firstRepeat? [] names = none ↔ names.Nodup := by
  simp [firstRepeat?_eq_none_iff]

namespace OutcomeTable

variable {events : List Name} (distinct : events.Nodup) (outcome : Name → Outcome)

include distinct

theorem entries_ofEvents : (ofEvents events outcome).entries = events.map fun event => (event, outcome event) :=
  Table.entries_ofList (by simpa [List.map_map, Function.comp_def] using distinct)

theorem keys_ofEvents : (ofEvents events outcome).keys = events := by
  simp [Table.keys, entries_ofEvents distinct, Function.comp_def]

theorem get?_ofEvents_eq_some_iff {event : Name} {result : Outcome} :
    (ofEvents events outcome).get? event = some result ↔ event ∈ events ∧ outcome event = result := by
  rw [Table.get?_eq_some_iff, entries_ofEvents distinct, List.mem_map]
  constructor
  · rintro ⟨other, listed, same⟩
    cases same
    exact ⟨listed, rfl⟩
  · rintro ⟨listed, rfl⟩
    exact ⟨event, listed, rfl⟩

end OutcomeTable

namespace Declaration

/-- What a listed transition makes of its event. -/
def Transition.outcome (transition : Transition) : Outcome :=
  match transition.target with
  | some target => .transition target
  | none => .ignore

namespace State

/-- What an event does by the list of a state. -/
def outcome (state : State) (event : Name) : Outcome :=
  match state.transitions.find? (·.event = event) with
  | some transition => transition.outcome
  | none => .cantHappen

section Outcome

variable {state : State} {event : Name}

theorem outcome_of_unlisted (unlisted : event ∉ state.transitions.map (·.event)) :
    state.outcome event = .cantHappen := by
  have absent : state.transitions.find? (·.event = event) = none := by simpa using unlisted
  rw [outcome, absent]

variable (once : (state.transitions.map (·.event)).Nodup)

include once

theorem outcome_of_mem {transition : Transition} (listed : transition ∈ state.transitions) :
    state.outcome transition.event = transition.outcome := by
  rw [outcome, find?_eq_of_nodup_map once listed rfl]

/-- A listed event has the outcome of the transition that lists it, and only such an event can happen. -/
theorem exists_of_outcome (happens : state.outcome event ≠ .cantHappen) :
    ∃ transition ∈ state.transitions, transition.event = event ∧ state.outcome event = transition.outcome := by
  by_cases lists : event ∈ state.transitions.map (·.event)
  · obtain ⟨transition, listed, rfl⟩ := List.mem_map.mp lists
    exact ⟨transition, listed, rfl, outcome_of_mem once listed⟩
  · exact absurd (outcome_of_unlisted lists) happens

theorem outcome_eq_transition_iff {target : Name} :
    state.outcome event = .transition target ↔ ⟨event, some target⟩ ∈ state.transitions := by
  constructor
  · intro leads
    have happens : state.outcome event ≠ .cantHappen := by simp [leads]
    obtain ⟨⟨_, goal⟩, listed, rfl, same⟩ := exists_of_outcome once happens
    cases goal with
    | none => cases same.symm.trans leads
    | some other =>
      cases same.symm.trans leads
      exact listed
  · exact outcome_of_mem once

theorem outcome_eq_ignore_iff : state.outcome event = .ignore ↔ ⟨event, none⟩ ∈ state.transitions := by
  constructor
  · intro ignored
    have happens : state.outcome event ≠ .cantHappen := by simp [ignored]
    obtain ⟨⟨_, goal⟩, listed, rfl, same⟩ := exists_of_outcome once happens
    cases goal with
    | none => exact listed
    | some other => cases same.symm.trans ignored
  · exact outcome_of_mem once

theorem outcome_eq_cantHappen_iff :
    state.outcome event = .cantHappen ↔ event ∉ state.transitions.map (·.event) := by
  refine ⟨fun impossible lists => ?_, outcome_of_unlisted⟩
  obtain ⟨⟨_, goal⟩, listed, rfl⟩ := List.mem_map.mp lists
  have happens := (outcome_of_mem once listed).symm.trans impossible
  cases goal <;> cases happens

end Outcome

/-- The creation that a creation state stands for. -/
def creation? (state : State) : Option Creation :=
  match state.kind with
  | .creation event => some ⟨event, state.name⟩
  | _ => none

theorem creation?_eq_some_iff {state : State} {creation : Creation} :
    state.creation? = some creation ↔ state.kind = .creation creation.event ∧ state.name = creation.target := by
  obtain ⟨event, target⟩ := creation
  unfold creation?
  split
  · rename_i kind
    simp [kind]
  · rename_i other
    simp only [reduceCtorEq, false_iff, not_and]
    exact fun kind => absurd kind (other event)

end State

/-- The kind of a state once creation is left to the initial state. -/
def StateKind.resolved : StateKind → Resolved.StateKind
  | .creation _ => .normal
  | .normal => .normal
  | .deletion => .deletion

namespace StateModel

/-- A transition between declared events and states. -/
structure Knows (model : StateModel) (transition : Transition) : Prop where
  event : transition.event ∈ model.eventNames
  target : ∀ target, transition.target = some target → target ∈ model.stateNames

/-- A state that mentions what is declared only and lists no event twice. -/
structure WellFormedState (model : StateModel) (state : State) : Prop where
  creation : ∀ event, state.kind = .creation event → event ∈ model.eventNames
  transitions : ∀ transition ∈ state.transitions, model.Knows transition
  once : (state.transitions.map (·.event)).Nodup

/-- A state model of which every name is declared once and stands for one thing. -/
structure WellFormed (model : StateModel) : Prop where
  eventNames : model.eventNames.Nodup
  stateNames : model.stateNames.Nodup
  states : ∀ state ∈ model.states, model.WellFormedState state
  creations : model.states.Pairwise fun first second =>
    ∀ event, first.kind = .creation event → second.kind ≠ .creation event

/-- The creations of a model in the order of its states. -/
def creations (model : StateModel) : List Creation := model.states.filterMap (·.creation?)

/-- What an event does before creation. -/
def initialOutcome (model : StateModel) (event : Name) : Outcome :=
  match model.creations.find? (·.event = event) with
  | some creation => .transition creation.target
  | none => .cantHappen

/-- A state with what it does about every event of the model. -/
def completed (model : StateModel) (state : State) : Resolved.State where
  name := state.name
  kind := state.kind.resolved
  activity := state.activity
  transitions := .ofEvents model.eventNames state.outcome

/-- The model with all its states completed. -/
def completeForm (model : StateModel) : Resolved.StateModel where
  domain := model.domain
  owner := model.owner
  states := model.states.map model.completed
  events := model.events
  initial := model.initialState? model.creations

section Completing

variable {model : StateModel}

theorem listTransition_eq_ok_iff {state : Name} {listed next : OutcomeTable} {transition : Transition} :
    model.listTransition state listed transition = .ok next ↔
      model.Knows transition ∧ listed.get? transition.event = none ∧
        listed.insert transition.event transition.outcome = next := by
  unfold listTransition
  split
  · rename_i unknown
    simp only [reduceCtorEq, false_iff, not_and]
    exact fun knows => absurd knows.event unknown
  · rename_i known
    rw [Decidable.not_not] at known
    split
    · rename_i unknown found
      obtain ⟨target, absent⟩ := Option.filter_eq_some_iff.mp found
      simp only [reduceCtorEq, false_iff, not_and]
      exact fun knows => absurd (knows.target unknown target) (by simpa using absent)
    · rename_i found
      have knows : model.Knows transition := by
        refine ⟨known, fun target leads => ?_⟩
        simpa [leads] using found
      rw [← Table.contains_eq_false_iff]
      cases listed.contains transition.event with
      | true => simp
      | false =>
        simp only [Bool.false_eq_true, ↓reduceIte, Except.ok.injEq, knows, true_and]
        rfl

/-- The list of a state is in order if it is known in full and lists no event twice. -/
theorem foldlM_listTransition_eq_ok_iff {state : Name} {transitions : List Transition}
    {listed : OutcomeTable} :
    transitions.foldlM (model.listTransition state) .empty = .ok listed ↔
      (∀ transition ∈ transitions, model.Knows transition) ∧ (transitions.map (·.event)).Nodup ∧
        listed.entries = transitions.map fun transition => (transition.event, transition.outcome) := by
  -- a step fails at an unknown name too, so that the run only enters entries once all names are known
  have entered : (∀ transition ∈ transitions, model.Knows transition) →
      (transitions.foldlM (model.listTransition state) .empty = .ok listed ↔
        (transitions.map (·.event)).Nodup ∧
          listed.entries = transitions.map fun transition => (transition.event, transition.outcome)) :=
    fun knows => Table.foldlM_insertNew_eq_ok_iff (·.event) (·.outcome)
      (fun transition present table absent =>
        listTransition_eq_ok_iff.mpr ⟨knows transition present, absent, rfl⟩)
      (fun _ _ _ _ ran => (listTransition_eq_ok_iff.mp ran).2.1)
  constructor
  · intro success
    have knows := forall_of_foldlM success fun _ _ _ _ ran => (listTransition_eq_ok_iff.mp ran).1
    exact ⟨knows, (entered knows).mp success⟩
  · rintro ⟨knows, rest⟩
    exact (entered knows).mpr rest

theorem completeTable_eq_ok_iff {state : State} {table : OutcomeTable} :
    model.completeTable state = .ok table ↔
      (∀ transition ∈ state.transitions, model.Knows transition) ∧
        (state.transitions.map (·.event)).Nodup ∧ .ofEvents model.eventNames state.outcome = table := by
  have answers : ∀ listed : OutcomeTable, listed.entries =
      state.transitions.map (fun transition => (transition.event, transition.outcome)) →
      (fun event => (listed.get? event).getD .cantHappen) = state.outcome := by
    intro listed entries
    funext event
    rw [Table.get?, entries, Table.lookup_map_pairs, State.outcome]
    cases state.transitions.find? (·.event = event) <;> rfl
  unfold completeTable
  simp only [bind_eq_ok_iff, foldlM_listTransition_eq_ok_iff, Except.ok.injEq]
  constructor
  · rintro ⟨listed, ⟨knows, once, entries⟩, complete⟩
    rw [answers listed entries] at complete
    exact ⟨knows, once, complete⟩
  · rintro ⟨knows, once, complete⟩
    have distinct : ((state.transitions.map fun transition =>
        (transition.event, transition.outcome)).map (·.1)).Nodup := by
      simpa [List.map_map, Function.comp_def] using once
    refine ⟨⟨_, distinct⟩, ⟨knows, once, rfl⟩, ?_⟩
    rw [answers _ rfl]
    exact complete

theorem addCreation_eq_ok_iff {state event : Name} {creations next : List Creation} :
    model.addCreation state event creations = .ok next ↔
      event ∈ model.eventNames ∧ event ∉ creations.map (·.event) ∧ creations ++ [⟨event, state⟩] = next := by
  unfold addCreation
  split
  · rename_i unknown
    simp [unknown]
  · rename_i known
    rw [Decidable.not_not] at known
    split
    · rename_i earlier found
      have same : earlier.event = event := by simpa using List.find?_some found
      have taken : event ∈ creations.map (·.event) :=
        List.mem_map.mpr ⟨earlier, List.mem_of_find?_eq_some found, same⟩
      simp [taken]
    · rename_i found
      have fresh : event ∉ creations.map (·.event) := by simpa using found
      simp only [Except.ok.injEq, known, fresh, not_false_eq_true, true_and]

/-- The creations after a state, which adds its own if it is a creation state. -/
def creationsAfter (model : StateModel) (creations : List Creation) (state : State) :
    Except AnalysisError (List Creation) :=
  match state.kind with
  | .creation event => model.addCreation state.name event creations
  | _ => .ok creations

theorem creationsAfter_eq_ok_iff {state : State} {creations next : List Creation} :
    model.creationsAfter creations state = .ok next ↔
      (∀ event, state.kind = .creation event →
        event ∈ model.eventNames ∧ event ∉ creations.map (·.event)) ∧
      creations ++ state.creation?.toList = next := by
  unfold creationsAfter State.creation?
  cases state.kind with
  | creation event => simp [addCreation_eq_ok_iff, and_assoc]
  | normal => simp
  | deletion => simp

theorem completeState_eq (model : StateModel) (done : Completed) (state : State) :
    model.completeState done state = (do
      let creations ← model.creationsAfter done.creations state
      let transitions ← model.completeTable state
      .ok ⟨done.states ++ [⟨state.name, state.kind.resolved, state.activity, transitions⟩], creations⟩) := by
  unfold completeState creationsAfter
  cases state.kind with
  | creation event => cases model.addCreation state.name event done.creations <;> rfl
  | normal => rfl
  | deletion => rfl

/-- A state is completed if it is in order and its creation is new. -/
theorem completeState_eq_ok_iff {done next : Completed} {state : State} :
    model.completeState done state = .ok next ↔ model.WellFormedState state ∧
      (∀ event, state.kind = .creation event → event ∉ done.creations.map (·.event)) ∧
        ⟨done.states ++ [model.completed state], done.creations ++ state.creation?.toList⟩ = next := by
  rw [completeState_eq]
  simp only [bind_eq_ok_iff, creationsAfter_eq_ok_iff, completeTable_eq_ok_iff, Except.ok.injEq]
  constructor
  · rintro ⟨_, ⟨creation, rfl⟩, _, ⟨knows, once, rfl⟩, rfl⟩
    exact ⟨⟨fun event creates => (creation event creates).1, knows, once⟩,
      fun event creates => (creation event creates).2, rfl⟩
  · rintro ⟨⟨known, knows, once⟩, fresh, rfl⟩
    exact ⟨_, ⟨fun event creates => ⟨known event creates, fresh event creates⟩, rfl⟩, _,
      ⟨knows, once, rfl⟩, rfl⟩

/-- A run over states completes them in order if each is in order and all creations differ. -/
theorem foldlM_completeState_eq_ok_iff (start : Completed) {final : Completed} {states : List State}
    (distinct : (start.creations.map (·.event)).Nodup) :
    states.foldlM model.completeState start = .ok final ↔
      (∀ state ∈ states, model.WellFormedState state) ∧
        ((start.creations ++ states.filterMap (·.creation?)).map (·.event)).Nodup ∧
          ⟨start.states ++ states.map model.completed,
            start.creations ++ states.filterMap (·.creation?)⟩ = final := by
  induction states generalizing start with
  | nil => simp [pure, Except.pure, distinct]
  | cons state rest ih =>
    -- the creations met so far are distinct, and the next state keeps them so if its own is new
    have split : (state :: rest).filterMap (·.creation?) =
        state.creation?.toList ++ rest.filterMap (·.creation?) := by
      rw [List.filterMap_cons]
      cases state.creation? <;> rfl
    have added : (∀ event, state.kind = .creation event → event ∉ start.creations.map (·.event)) ↔
        ((start.creations ++ state.creation?.toList).map (·.event)).Nodup := by
      unfold State.creation?
      cases state.kind with
      | creation event => simp [List.nodup_append, distinct]
      | normal => simpa using distinct
      | deletion => simpa using distinct
    rw [List.foldlM_cons, bind_eq_ok_iff, List.forall_mem_cons, split, ← List.append_assoc]
    simp only [completeState_eq_ok_iff]
    constructor
    · rintro ⟨_, ⟨wellFormed, fresh, rfl⟩, later⟩
      obtain ⟨others, apart, same⟩ := (ih _ (added.mp fresh)).mp later
      exact ⟨⟨wellFormed, others⟩, apart, by simpa using same⟩
    · rintro ⟨⟨wellFormed, others⟩, apart, same⟩
      have fresh : ((start.creations ++ state.creation?.toList).map (·.event)).Nodup := by
        rw [List.map_append] at apart
        exact (List.nodup_append.mp apart).1
      exact ⟨_, ⟨wellFormed, added.mpr fresh, rfl⟩, (ih _ fresh).mpr ⟨others, apart, by simpa using same⟩⟩

theorem nodup_creations_iff :
    (model.creations.map (·.event)).Nodup ↔ model.states.Pairwise fun first second =>
      ∀ event, first.kind = .creation event → second.kind ≠ .creation event := by
  have apart : ∀ first second : State,
      (∀ one, first.creation? = some one → ∀ other, second.creation? = some other → one.event ≠ other.event) ↔
        ∀ event, first.kind = .creation event → second.kind ≠ .creation event := by
    intro first second
    simp only [State.creation?_eq_some_iff]
    constructor
    · intro different event creates also
      exact different ⟨event, first.name⟩ ⟨creates, rfl⟩ ⟨event, second.name⟩ ⟨also, rfl⟩ rfl
    · rintro different one ⟨creates, _⟩ other ⟨also, _⟩ same
      exact different one.event creates (same ▸ also)
  rw [creations, List.Nodup, List.pairwise_map, List.pairwise_filterMap]
  simp only [apart]

/-- A model has a complete form exactly if it is well-formed. -/
theorem normalize_eq_ok_iff {normal : Resolved.StateModel} :
    model.normalize = .ok normal ↔ model.WellFormed ∧ model.completeForm = normal := by
  have completing : (model.states.foldlM model.completeState {} >>= fun done =>
      .ok ⟨model.domain, model.owner, done.states, model.events, model.initialState? done.creations⟩) =
        .ok normal ↔
      ((∀ state ∈ model.states, model.WellFormedState state) ∧ (model.creations.map (·.event)).Nodup) ∧
        model.completeForm = normal := by
    simp only [bind_eq_ok_iff, foldlM_completeState_eq_ok_iff {} List.nodup_nil, Except.ok.injEq,
      List.nil_append, and_assoc]
    constructor
    · rintro ⟨_, wellFormed, distinct, rfl, same⟩
      exact ⟨wellFormed, distinct, same⟩
    · rintro ⟨wellFormed, distinct, same⟩
      exact ⟨_, wellFormed, distinct, rfl, same⟩
  unfold normalize
  split
  · rename_i event _ again
    simp only [reduceCtorEq, false_iff, not_and]
    intro wellFormed
    rw [firstRepeat?_nil_eq_none_iff.mpr wellFormed.eventNames] at again
    cases again
  · rename_i state _ again
    simp only [reduceCtorEq, false_iff, not_and]
    intro wellFormed
    rw [firstRepeat?_nil_eq_none_iff.mpr wellFormed.stateNames] at again
    cases again
  · rename_i events states
    rw [completing, nodup_creations_iff]
    refine and_congr_left' ⟨fun ⟨wellFormed, creations⟩ => ?_, fun wellFormed => ?_⟩
    · exact ⟨firstRepeat?_nil_eq_none_iff.mp events, firstRepeat?_nil_eq_none_iff.mp states, wellFormed,
        creations⟩
    · exact ⟨wellFormed.states, wellFormed.creations⟩

end Completing

/-- A state that answers every event of the model as a declared state lists it. -/
structure CompletesState (model : StateModel) (state : State) (result : Resolved.State) : Prop where
  name : result.name = state.name
  kind : result.kind = state.kind.resolved
  activity : result.activity = state.activity
  events : result.transitions.keys = model.eventNames
  transition : ∀ event target, result.transitions.get? event = some (.transition target) ↔
    ⟨event, some target⟩ ∈ state.transitions
  ignore : ∀ event, result.transitions.get? event = some .ignore ↔ ⟨event, none⟩ ∈ state.transitions
  cantHappen : ∀ event, result.transitions.get? event = some .cantHappen ↔
    event ∈ model.eventNames ∧ event ∉ state.transitions.map (·.event)

/-- An initial state that creation events leave for their states, and no other event can happen in. -/
structure CompletesInitial (model : StateModel) (initial : InitialState) : Prop where
  creations : initial.creations = model.creations
  events : initial.transitions.keys = model.eventNames
  transition : ∀ event target, initial.transitions.get? event = some (.transition target) ↔
    ∃ state ∈ model.states, state.kind = .creation event ∧ state.name = target
  cantHappen : ∀ event, initial.transitions.get? event = some .cantHappen ↔
    event ∈ model.eventNames ∧ ∀ state ∈ model.states, state.kind ≠ .creation event

/-- An initial state ignores no event. -/
theorem CompletesInitial.get?_ne_ignore {model : StateModel} {initial : InitialState}
    (completes : model.CompletesInitial initial) (event : Name) :
    initial.transitions.get? event ≠ some .ignore := by
  intro ignored
  by_cases created : ∃ state ∈ model.states, state.kind = .creation event
  · obtain ⟨state, listed, creates⟩ := created
    have leads := (completes.transition event state.name).mpr ⟨state, listed, creates, rfl⟩
    cases ignored.symm.trans leads
  · have known : event ∈ model.eventNames := completes.events ▸ Table.mem_keys_of_get? ignored
    have impossible := (completes.cantHappen event).mpr
      ⟨known, fun state listed creates => created ⟨state, listed, creates⟩⟩
    cases ignored.symm.trans impossible

/-- A model that completes a declared one: its states one by one, and an initial state if it has creation
states. -/
structure Completes (model : StateModel) (normal : Resolved.StateModel) : Prop where
  domain : normal.domain = model.domain
  owner : normal.owner = model.owner
  events : normal.events = model.events
  states : List.Forall₂ model.CompletesState model.states normal.states
  hasInitial : normal.initial.isSome = true ↔ ∃ state ∈ model.states, ∃ event, state.kind = .creation event
  initial : ∀ initial, normal.initial = some initial → model.CompletesInitial initial

section Complete

variable {model : StateModel} (wellFormed : model.WellFormed)

theorem mem_creations_iff {creation : Creation} :
    creation ∈ model.creations ↔
      ∃ state ∈ model.states, state.kind = .creation creation.event ∧ state.name = creation.target := by
  simp only [creations, List.mem_filterMap, State.creation?_eq_some_iff]

include wellFormed

theorem completesState_completed {state : State} (listed : state ∈ model.states) :
    model.CompletesState state (model.completed state) := by
  have distinct := wellFormed.eventNames
  obtain ⟨_, knows, once⟩ := wellFormed.states state listed
  refine ⟨rfl, rfl, rfl, OutcomeTable.keys_ofEvents distinct _, fun event target => ?_, fun event => ?_,
    fun event => ?_⟩
  · rw [completed, OutcomeTable.get?_ofEvents_eq_some_iff distinct, State.outcome_eq_transition_iff once]
    exact and_iff_right_of_imp fun listed => (knows _ listed).event
  · rw [completed, OutcomeTable.get?_ofEvents_eq_some_iff distinct, State.outcome_eq_ignore_iff once]
    exact and_iff_right_of_imp fun listed => (knows _ listed).event
  · rw [completed, OutcomeTable.get?_ofEvents_eq_some_iff distinct, State.outcome_eq_cantHappen_iff once]

theorem find?_creations_eq_some_iff {event : Name} {creation : Creation} :
    model.creations.find? (·.event = event) = some creation ↔
      creation ∈ model.creations ∧ creation.event = event :=
  find?_eq_some_iff_of_nodup_map (nodup_creations_iff.mpr wellFormed.creations)

theorem initialOutcome_eq_transition_iff {event target : Name} :
    model.initialOutcome event = .transition target ↔
      ∃ state ∈ model.states, state.kind = .creation event ∧ state.name = target := by
  have leads : ⟨event, target⟩ ∈ model.creations ↔
      ∃ state ∈ model.states, state.kind = .creation event ∧ state.name = target := mem_creations_iff
  rw [← leads, initialOutcome]
  constructor
  · intro same
    split at same
    · rename_i creation found
      cases same
      obtain ⟨present, rfl⟩ := (find?_creations_eq_some_iff wellFormed).mp found
      exact present
    · cases same
  · intro present
    rw [(find?_creations_eq_some_iff wellFormed).mpr ⟨present, rfl⟩]

omit wellFormed in
theorem initialOutcome_eq_cantHappen_iff {event : Name} :
    model.initialOutcome event = .cantHappen ↔ ∀ state ∈ model.states, state.kind ≠ .creation event := by
  have none : model.initialOutcome event = .cantHappen ↔
      model.creations.find? (·.event = event) = none := by
    unfold initialOutcome
    cases model.creations.find? (·.event = event) <;> simp
  rw [none, List.find?_eq_none]
  constructor
  · intro others state listed creates
    exact others ⟨event, state.name⟩ (mem_creations_iff.mpr ⟨state, listed, creates, rfl⟩) (by simp)
  · intro uncreated creation present named
    obtain ⟨state, listed, creates, _⟩ := mem_creations_iff.mp present
    rw [of_decide_eq_true named] at creates
    exact uncreated state listed creates

/-- The initial state leaves for the creation states and for nothing else. -/
theorem completesInitial_of_initialState? {initial : InitialState}
    (found : model.initialState? model.creations = some initial) : model.CompletesInitial initial := by
  have distinct := wellFormed.eventNames
  have answers : initial = ⟨model.creations, .ofEvents model.eventNames model.initialOutcome⟩ := by
    unfold initialState? at found
    split at found
    · cases found
    · exact (Option.some.inj found).symm
  rw [answers]
  refine ⟨rfl, OutcomeTable.keys_ofEvents distinct _, fun event target => ?_, fun event => ?_⟩
  · rw [OutcomeTable.get?_ofEvents_eq_some_iff distinct, initialOutcome_eq_transition_iff wellFormed]
    refine and_iff_right_of_imp ?_
    rintro ⟨state, listed, creates, _⟩
    exact (wellFormed.states state listed).creation event creates
  · rw [OutcomeTable.get?_ofEvents_eq_some_iff distinct, initialOutcome_eq_cantHappen_iff]

theorem completes_completeForm : model.Completes model.completeForm := by
  refine ⟨rfl, rfl, rfl, ?_, ?_, fun initial found => completesInitial_of_initialState? wellFormed found⟩
  · rw [completeForm, List.forall₂_map_right_iff, List.forall₂_same]
    exact fun state listed => completesState_completed wellFormed listed
  · have creates : model.creations ≠ [] ↔ ∃ state ∈ model.states, ∃ event, state.kind = .creation event := by
      rw [← List.length_pos_iff, List.length_pos_iff_exists_mem]
      simp only [mem_creations_iff]
      constructor
      · rintro ⟨creation, state, listed, creates, _⟩
        exact ⟨state, listed, _, creates⟩
      · rintro ⟨state, listed, event, creates⟩
        exact ⟨⟨event, state.name⟩, state, listed, creates, rfl⟩
    rw [← creates, completeForm, initialState?]
    cases model.creations <;> simp

end Complete

end StateModel

end Declaration

end ClassModel
