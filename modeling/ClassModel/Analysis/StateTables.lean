import ClassModel.AnalysisError
import ClassModel.Resolved.Model

/-! # Complete state tables

A declared state model lists some transitions; its complete form says for every state and every
event what happens. The names of states and of events are unique, a state lists an event once, and
an event creates instances in one state only. Creation events leave from an initial state in
which no other event can happen.
-/

namespace ClassModel

/-- The first name that occurs again, in the order of the second occurrences. -/
def firstRepeat? : List Name → List Name → Option Name
  | _, [] => none
  | seen, name :: rest =>
    if name ∈ seen then some name else firstRepeat? (seen ++ [name]) rest

/-- The table that gives each event an outcome. -/
def OutcomeTable.ofEvents (events : List Name) (outcome : Name → Outcome) : OutcomeTable :=
  .ofList (events.map fun event => (event, outcome event))

namespace Declaration.StateModel

def eventNames (model : StateModel) : List Name := model.events.map (·.name)

def stateNames (model : StateModel) : List Name := model.states.map (·.name)

/-- Adds the outcome of a listed transition of a state. -/
def listTransition (model : StateModel) (state : Name) (listed : OutcomeTable)
    (transition : Transition) : Except AnalysisError OutcomeTable :=
  if transition.event ∉ model.eventNames then
    .error (.unknownEvent model.name state transition.event)
  else
    match transition.target.filter (· ∉ model.stateNames) with
    | some unknown => .error (.unknownState model.name state transition.event unknown)
    | none =>
      if listed.contains transition.event then
        .error (.duplicateTransition model.name state transition.event)
      else
        .ok (listed.insert transition.event
          (match transition.target with
          | some target => .transition target
          | none => .ignore))

/-- What every event of the model does in a state. -/
def completeTable (model : StateModel) (state : State) : Except AnalysisError OutcomeTable := do
  let listed ← state.transitions.foldlM (model.listTransition state.name) .empty
  .ok (.ofEvents model.eventNames fun event => (listed.get? event).getD .cantHappen)

/-- Notes that an event creates instances in a state. -/
def addCreation (model : StateModel) (state event : Name) (creations : List Creation) :
    Except AnalysisError (List Creation) :=
  if event ∉ model.eventNames then .error (.unknownEvent model.name state event)
  else
    match creations.find? (·.event = event) with
    | some known => .error (.conflictingCreationEvent model.name event known.target state)
    | none => .ok (creations ++ [⟨event, state⟩])

/-- The states completed so far and the creation events met. -/
structure Completed where
  states : List Resolved.State := []
  creations : List Creation := []

/-- Completes a state; the role of a creation state passes to the initial state. -/
def completeState (model : StateModel) (done : Completed) (state : State) :
    Except AnalysisError Completed := do
  let (kind, creations) ← match state.kind with
    | .creation event => do
      let creations ← model.addCreation state.name event done.creations
      .ok (Resolved.StateKind.normal, creations)
    | .normal => .ok (Resolved.StateKind.normal, done.creations)
    | .deletion => .ok (Resolved.StateKind.deletion, done.creations)
  let transitions ← model.completeTable state
  .ok ⟨done.states ++ [⟨state.name, kind, state.activity, transitions⟩], creations⟩

/-- The state that creation events leave from, if there are any. -/
def initialState? (model : StateModel) (creations : List Creation) : Option InitialState :=
  if creations.isEmpty then none
  else
    some {
      creations
      transitions := .ofEvents model.eventNames fun event =>
        match creations.find? (·.event = event) with
        | some creation => .transition creation.target
        | none => .cantHappen }

/-- The complete form of a state model. -/
def normalize (model : StateModel) : Except AnalysisError Resolved.StateModel :=
  match firstRepeat? [] model.eventNames, firstRepeat? [] model.stateNames with
  | some event, _ => .error (.duplicateEvent model.name event)
  | none, some state => .error (.duplicateState model.name state)
  | none, none => do
    let done ← model.states.foldlM model.completeState {}
    .ok ⟨model.domain, model.owner, done.states, model.events, model.initialState? done.creations⟩

/-- What is wrong with the owner of a state model: its class or its relationship does not exist. -/
def ownerFault? (classes : Table Name Resolved.Class)
    (relationships : Table Rnum Resolved.Relationship) (model : StateModel) :
    Option AnalysisError :=
  match model.owner with
  | .lifecycle className =>
    if classes.contains className then none else some (.unknownLifecycleClass model.domain className)
  | .assigner rnum =>
    if relationships.contains rnum then none
    else some (.unknownAssignerRelationship model.domain rnum)

/-- The complete form of a state model whose owner exists. -/
def resolve (classes : Table Name Resolved.Class)
    (relationships : Table Rnum Resolved.Relationship) (model : StateModel) :
    Except AnalysisError Resolved.StateModel :=
  match model.ownerFault? classes relationships with
  | some fault => .error fault
  | none => model.normalize

end Declaration.StateModel

end ClassModel
