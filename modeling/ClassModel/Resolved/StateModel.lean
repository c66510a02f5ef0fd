import ClassModel.Declaration.StateModel
import ClassModel.Table

/-! # Normalized state models

A normalized state says for every event of its model what happens: a transition, nothing, or
that the event cannot happen. Creation events leave from an initial state of their own.
-/

namespace ClassModel

/-- What an event does in a state. -/
inductive Outcome where
  | transition (target : Name)
  | ignore
  | cantHappen
  deriving DecidableEq, Repr

/-- For each event of a model, in the order of the events, what it does. -/
abbrev OutcomeTable := Table Name Outcome

/-- A creation event with the state that it leads to. -/
structure Creation where
  event : Name
  target : Name
  deriving DecidableEq, Repr

/-- The state before creation. -/
structure InitialState where
  creations : List Creation
  transitions : OutcomeTable
  deriving DecidableEq

namespace Resolved

inductive StateKind where
  | normal
  | deletion
  deriving DecidableEq, Repr

/-- A state that answers every event of its model. -/
structure State where
  name : Name
  kind : StateKind
  activity : Option String
  transitions : OutcomeTable
  deriving DecidableEq

/-- A normalized state model. -/
structure StateModel where
  domain : Name
  owner : Owner
  states : List State
  events : List Event
  initial : Option InitialState
  deriving DecidableEq

namespace StateModel

def name (model : StateModel) : Name := model.owner.name

def state? (model : StateModel) (name : Name) : Option State := model.states.find? (·.name = name)

end StateModel

end Resolved

end ClassModel
