/-! # Identifier groups

A class may have up to three identifiers, numbered I, I2 and I3. `Identifiers` gives the member
attributes of each group that a class defines.
-/

namespace ClassModel

/-- The text that a class, an attribute, a phrase, a type, a state or an event goes by. -/
abbrev Name := String

/-- One of the candidate keys of a class. -/
inductive IdGroup where
  | first
  | second
  | third
  deriving DecidableEq, Repr

namespace IdGroup

def all : List IdGroup := [.first, .second, .third]

/-- The number of the identifier, counted from one. -/
def number : IdGroup → Nat
  | .first => 1
  | .second => 2
  | .third => 3

def label : IdGroup → String
  | .first => "I"
  | .second => "I2"
  | .third => "I3"

/-- Reads a label; the first group may also carry its number. -/
def ofText? : String → Option IdGroup
  | "I" => some .first
  | "I1" => some .first
  | "I2" => some .second
  | "I3" => some .third
  | _ => none

theorem ofText?_label (group : IdGroup) : ofText? group.label = some group := by
  cases group <;> rfl

end IdGroup

/-- The members of each identifier group of a class; a group that is not defined has none. -/
structure Identifiers where
  members? : IdGroup → Option (List Name)

namespace Identifiers

@[ext] theorem ext {left right : Identifiers}
    (same : ∀ group, left.members? group = right.members? group) : left = right := by
  cases left
  cases right
  simp only [mk.injEq]
  exact funext same

instance : DecidableEq Identifiers := fun left right =>
  if same : ∀ group ∈ IdGroup.all, left.members? group = right.members? group then
    isTrue (ext fun group => same group (by cases group <;> simp [IdGroup.all]))
  else isFalse fun equal => same fun _ _ => by rw [equal]

/-- The defined groups in order with their members. -/
def groups (identifiers : Identifiers) : List (IdGroup × List Name) :=
  IdGroup.all.filterMap fun group => (identifiers.members? group).map (group, ·)

/-- The defined groups in order. -/
def defined (identifiers : Identifiers) : List IdGroup := identifiers.groups.map (·.1)

/-- The members of a group, none if the group is not defined. -/
def members (identifiers : Identifiers) (group : IdGroup) : List Name :=
  (identifiers.members? group).getD []

/-- A singleton class has one identifier and that one has no members. -/
def isSingleton (identifiers : Identifiers) : Bool :=
  identifiers.groups.length == 1 && (identifiers.members .first).isEmpty

/-- The members that a list of attribute memberships gives a group: in order, without repeats. -/
def collect (memberships : List (Name × List IdGroup)) (group : IdGroup) : List Name :=
  ((memberships.filter (·.2.contains group)).map (·.1)).eraseDups

/-- The groups of a list of attribute memberships; without any there is the memberless group I. -/
def ofMemberships (memberships : List (Name × List IdGroup)) : Identifiers :=
  if memberships.all (·.2.isEmpty) then
    ⟨fun group => if group = .first then some [] else none⟩
  else
    ⟨fun group =>
      if memberships.any (·.2.contains group) then some (collect memberships group) else none⟩

/-- The groups given as pairs; of two entries for one group the later one counts. -/
def ofPairs (pairs : List (IdGroup × List Name)) : Identifiers :=
  ⟨fun group => (pairs.reverse.find? (·.1 = group)).map (·.2)⟩

end Identifiers

end ClassModel
