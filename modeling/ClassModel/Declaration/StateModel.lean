import ClassModel.Identifier
import ClassModel.Rnum

/-! # State model declarations

A state model is the lifecycle of the instances of a class or the assigner of a relationship.
Each state lists its transitions; one without a target says that the event is ignored.
-/

namespace ClassModel

/-- What a state model describes. -/
inductive Owner where
  | lifecycle (className : Name)
  | assigner (rnum : Rnum)
  deriving DecidableEq, Repr

/-- The name of a state model: its class, or its relationship number. -/
def Owner.name : Owner → Name
  | .lifecycle className => className
  | .assigner rnum => rnum.text

inductive EventKind where
  | normal
  | creation
  deriving DecidableEq, Repr

/-- A parameter of an event. -/
structure Parameter where
  name : Name
  type : Name
  deriving DecidableEq, Repr

/-- An event of a state model. -/
structure Event where
  name : Name
  signature : List Parameter := []
  kind : EventKind := .normal
  deriving DecidableEq, Repr

def Event.withParameter (event : Event) (name type : Name) : Event :=
  { event with signature := event.signature ++ [⟨name, type⟩] }

namespace Declaration

/-- The declared role of a state. -/
inductive StateKind where
  /-- Entered when the event creates an instance. -/
  | creation (event : Name)
  | normal
  | deletion
  deriving DecidableEq, Repr

/-- A declared reaction to an event; without a target the event is ignored. -/
structure Transition where
  event : Name
  target : Option Name := none
  deriving DecidableEq, Repr

/-- A state as declared. -/
structure State where
  name : Name
  kind : StateKind
  /-- A reference to what the state does, passed on as it is. -/
  activity : Option String := none
  transitions : List Transition := []
  deriving DecidableEq, Repr

namespace State

def withActivity (state : State) (activity : String) : State :=
  { state with activity := some activity }

def withTransition (state : State) (event target : Name) : State :=
  { state with transitions := state.transitions ++ [⟨event, some target⟩] }

def withIgnored (state : State) (event : Name) : State :=
  { state with transitions := state.transitions ++ [⟨event, none⟩] }

end State

/-- A state model as declared. -/
structure StateModel where
  domain : Name
  owner : Owner
  states : List State := []
  events : List Event := []
  deriving DecidableEq, Repr

namespace StateModel

def name (model : StateModel) : Name := model.owner.name

def withState (model : StateModel) (state : State) : StateModel :=
  { model with states := model.states ++ [state] }

def withEvent (model : StateModel) (event : Event) : StateModel :=
  { model with events := model.events ++ [event] }

end StateModel

end Declaration

end ClassModel
