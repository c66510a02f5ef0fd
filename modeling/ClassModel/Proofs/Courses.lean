import ClassModel.Proofs.StateTables

/-! # Courses of events

The declarations of a state model let an event lead from one position to another: a creation event from
outside into its state, a listed transition to its target, and a listed event without a target back to
where it came from. The tables of the complete form lead nowhere else, one event at a time and hence
along every sequence of events, up to the first one that cannot happen.
-/

namespace ClassModel

/-- Where an instance stands: it is not created yet, or it is in a state. -/
inductive Position where
  | uncreated
  | inState (name : Name)
  deriving DecidableEq, Repr

/-- What a sequence of events leads to: the positions come to one after the other, and the event that
cannot happen, if the sequence ends with one. -/
structure Course where
  visited : List Position
  refused : Option Name
  deriving DecidableEq, Repr

namespace Declaration.StateModel

/-- Where the declarations of a model let an event lead. -/
inductive Leads (model : StateModel) : Position → Name → Position → Prop where
  | create {state : State} {event : Name} (listed : state ∈ model.states)
      (creates : state.kind = .creation event) : Leads model .uncreated event (.inState state.name)
  | move {state : State} {event target : Name} (listed : state ∈ model.states)
      (moves : ⟨event, some target⟩ ∈ state.transitions) :
      Leads model (.inState state.name) event (.inState target)
  | stay {state : State} {event : Name} (listed : state ∈ model.states)
      (ignores : ⟨event, none⟩ ∈ state.transitions) :
      Leads model (.inState state.name) event (.inState state.name)

/-- The course that the declarations of a model let a sequence of events take. -/
inductive Takes (model : StateModel) : Position → List Name → Course → Prop where
  | done {position : Position} : Takes model position [] ⟨[], none⟩
  | follow {position next : Position} {event : Name} {rest : List Name} {course : Course}
      (leads : model.Leads position event next) (later : Takes model next rest course) :
      Takes model position (event :: rest) ⟨next :: course.visited, course.refused⟩
  | refuse {position : Position} {event : Name} {rest : List Name}
      (stuck : ∀ next, ¬ model.Leads position event next) :
      Takes model position (event :: rest) ⟨[], some event⟩

end Declaration.StateModel

namespace Resolved.StateModel

/-- The table for a position. -/
def table? (model : StateModel) : Position → Option OutcomeTable
  | .uncreated => model.initial.map (·.transitions)
  | .inState name => (model.state? name).map (·.transitions)

/-- Where an event leads by the tables. -/
def next? (model : StateModel) (position : Position) (event : Name) : Option Position :=
  match (model.table? position).bind (·.get? event) with
  | some (.transition target) => some (.inState target)
  | some .ignore => some position
  | some .cantHappen => none
  | none => none

/-- The course that a sequence of events takes by the tables. -/
def course (model : StateModel) : Position → List Name → Course
  | _, [] => ⟨[], none⟩
  | position, event :: rest =>
    match model.next? position event with
    | none => ⟨[], some event⟩
    | some next =>
      let later := model.course next rest
      ⟨next :: later.visited, later.refused⟩

theorem next?_eq_some_iff {model : StateModel} {position next : Position} {event : Name} :
    model.next? position event = some next ↔ ∃ table, model.table? position = some table ∧
      ((∃ target, table.get? event = some (.transition target) ∧ .inState target = next) ∨
        (table.get? event = some .ignore ∧ position = next)) := by
  unfold next?
  cases model.table? position with
  | none => simp
  | some table =>
    simp only [Option.bind_some, Option.some.injEq, exists_eq_left']
    cases table.get? event with
    | none => simp
    | some outcome => cases outcome <;> simp

end Resolved.StateModel

namespace Declaration.StateModel

section Agreement

variable {model : StateModel} (wellFormed : model.WellFormed)

include wellFormed

theorem state?_completeForm_eq_some_iff {name : Name} {result : Resolved.State} :
    model.completeForm.state? name = some result ↔
      ∃ state ∈ model.states, state.name = name ∧ model.completed state = result := by
  have names : (model.completeForm.states.map (·.name)).Nodup := by
    rw [completeForm, List.map_map]
    exact wellFormed.stateNames
  rw [Resolved.StateModel.state?, find?_eq_some_iff_of_nodup_map names, completeForm, List.mem_map]
  constructor
  · rintro ⟨⟨state, listed, rfl⟩, named⟩
    exact ⟨state, listed, named, rfl⟩
  · rintro ⟨state, listed, named, rfl⟩
    exact ⟨⟨state, listed, rfl⟩, named⟩

theorem table?_completeForm_inState {state : State} (listed : state ∈ model.states) :
    model.completeForm.table? (.inState state.name) = some (model.completed state).transitions :=
  congrArg (Option.map _) ((state?_completeForm_eq_some_iff wellFormed).mpr ⟨state, listed, rfl, rfl⟩)

/-- By the tables an event leads where the declarations let it lead. -/
theorem next?_completeForm_eq_some_iff {position next : Position} {event : Name} :
    model.completeForm.next? position event = some next ↔ model.Leads position event next := by
  have complete := completes_completeForm wellFormed
  rw [Resolved.StateModel.next?_eq_some_iff]
  constructor
  · rintro ⟨table, found, outcome⟩
    cases position with
    | uncreated =>
      obtain ⟨initial, known, rfl⟩ := Option.map_eq_some_iff.mp found
      have completes := complete.initial initial known
      rcases outcome with ⟨target, leads, rfl⟩ | ⟨ignored, _⟩
      · obtain ⟨state, listed, creates, rfl⟩ := (completes.transition event target).mp leads
        exact .create listed creates
      · exact absurd ignored (completes.get?_ne_ignore event)
    | inState name =>
      obtain ⟨result, known, rfl⟩ := Option.map_eq_some_iff.mp found
      obtain ⟨state, listed, rfl, rfl⟩ := (state?_completeForm_eq_some_iff wellFormed).mp known
      have completes := completesState_completed wellFormed listed
      rcases outcome with ⟨target, leads, rfl⟩ | ⟨ignored, rfl⟩
      · exact .move listed ((completes.transition event target).mp leads)
      · exact .stay listed ((completes.ignore event).mp ignored)
  · intro leads
    cases leads with
    | @create state _ listed creates =>
      obtain ⟨initial, known⟩ := Option.isSome_iff_exists.mp
        (complete.hasInitial.mpr ⟨state, listed, event, creates⟩)
      have leaves := ((complete.initial initial known).transition event state.name).mpr
        ⟨state, listed, creates, rfl⟩
      exact ⟨initial.transitions, congrArg (Option.map _) known, .inl ⟨state.name, leaves, rfl⟩⟩
    | @move state _ target listed moves =>
      have leaves := ((completesState_completed wellFormed listed).transition event target).mpr moves
      exact ⟨_, table?_completeForm_inState wellFormed listed, .inl ⟨target, leaves, rfl⟩⟩
    | @stay state _ listed ignores =>
      have stays := ((completesState_completed wellFormed listed).ignore event).mpr ignores
      exact ⟨_, table?_completeForm_inState wellFormed listed, .inr ⟨stays, rfl⟩⟩

/-- By the tables every sequence of events takes the course that the declarations let it take. -/
theorem course_completeForm_eq_iff {position : Position} {events : List Name} {course : Course} :
    model.completeForm.course position events = course ↔ model.Takes position events course := by
  induction events generalizing position course with
  | nil =>
    constructor
    · rintro rfl
      exact .done
    · rintro ⟨⟩
      rfl
  | cons event rest ih =>
    rw [Resolved.StateModel.course]
    cases step : model.completeForm.next? position event with
    | none =>
      have stuck : ∀ next, ¬ model.Leads position event next := fun next leads => by
        rw [(next?_completeForm_eq_some_iff wellFormed).mpr leads] at step
        cases step
      constructor
      · rintro rfl
        exact .refuse stuck
      · intro takes
        cases takes with
        | follow leads _ => exact absurd leads (stuck _)
        | refuse _ => rfl
    | some next =>
      have leads := (next?_completeForm_eq_some_iff wellFormed).mp step
      constructor
      · rintro rfl
        exact .follow leads (ih.mp rfl)
      · intro takes
        cases takes with
        | follow other later =>
          -- the tables lead to one position, so the declarations do
          cases step.symm.trans ((next?_completeForm_eq_some_iff wellFormed).mpr other)
          cases ih.mpr later
          rfl
        | refuse stuck => exact absurd leads (stuck next)

end Agreement

/-- A state model has a complete form exactly if it is well-formed. The complete form answers every event
in every state as it is listed there, and by its tables every sequence of events takes, from outside and
from every state, the course that the declarations let it take. -/
theorem normalize_exact (model : StateModel) :
    ((∃ normal, model.normalize = .ok normal) ↔ model.WellFormed) ∧
      ∀ normal, model.normalize = .ok normal → model.Completes normal ∧
        ∀ position events course,
          normal.course position events = course ↔ model.Takes position events course := by
  constructor
  · simp only [normalize_eq_ok_iff, exists_and_left, exists_eq', and_true]
  · intro normal success
    obtain ⟨wellFormed, rfl⟩ := normalize_eq_ok_iff.mp success
    exact ⟨completes_completeForm wellFormed, fun _ _ _ => course_completeForm_eq_iff wellFormed⟩

end Declaration.StateModel

namespace Sample

/-- A door is installed closed, opens and closes, and is removed while closed. -/
def door : Declaration.StateModel :=
  { domain := "Building"
    owner := .lifecycle "Door"
    states := [
      { name := "Closed", kind := .creation "Install"
        transitions := [⟨"Open", some "Opened"⟩, ⟨"Close", none⟩, ⟨"Remove", some "Removed"⟩] },
      { name := "Opened", kind := .normal, transitions := [⟨"Close", some "Closed"⟩] },
      { name := "Removed", kind := .deletion }]
    events := [{ name := "Install", kind := .creation }, { name := "Open" }, { name := "Close" },
      { name := "Remove" }] }

end Sample

namespace Declaration.StateModel

/-- A door is installed, ignores being closed once more, opens and closes, and cannot be installed again. -/
theorem normalize_exact_door : ∃ normal, Sample.door.normalize = .ok normal ∧ Sample.door.WellFormed ∧
    Sample.door.Completes normal ∧
    Sample.door.Takes .uncreated ["Install", "Close", "Open", "Close", "Install", "Open"]
      ⟨[.inState "Closed", .inState "Closed", .inState "Opened", .inState "Closed"], some "Install"⟩ := by
  have ran : (Sample.door.normalize.toOption.map fun normal =>
      normal.course .uncreated ["Install", "Close", "Open", "Close", "Install", "Open"]) =
      some ⟨[.inState "Closed", .inState "Closed", .inState "Opened", .inState "Closed"], some "Install"⟩ := by
    decide +kernel
  simp only [Option.map_eq_some_iff, toOption_eq_some_iff] at ran
  obtain ⟨normal, success, course⟩ := ran
  obtain ⟨accepted, complete⟩ := normalize_exact Sample.door
  obtain ⟨completes, takes⟩ := complete normal success
  exact ⟨normal, success, accepted.mp ⟨normal, success⟩, completes, (takes _ _ _).mp course⟩

end Declaration.StateModel

end ClassModel
