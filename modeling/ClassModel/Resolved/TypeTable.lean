import ClassModel.Identifier

/-! # The type table

Every type that a model uses, once, in the order of first use. A union may go by one alias.
-/

namespace ClassModel

/-- A union of scalars with the name it goes by, if any. -/
structure UnionType where
  members : List Name
  aliasName : Option Name
  deriving DecidableEq, Repr

/-- Two names for one union. -/
structure AliasConflict where
  known : Name
  new : Name
  deriving DecidableEq, Repr

/-- The scalars and unions in use. -/
structure TypeTable where
  scalars : List Name := []
  unions : List UnionType := []
  deriving DecidableEq, Repr

namespace TypeTable

def containsScalar (table : TypeTable) (name : Name) : Bool := table.scalars.contains name

def union? (table : TypeTable) (members : List Name) : Option UnionType :=
  table.unions.find? (·.members = members)

/-- Enters a scalar unless it is there. -/
def addScalar (table : TypeTable) (name : Name) : TypeTable :=
  if table.containsScalar name then table else { table with scalars := table.scalars ++ [name] }

/-- The alias of a union that is given one more. -/
def joinAlias : Option Name → Option Name → Except AliasConflict (Option Name)
  | some known, some new => if known = new then .ok (some known) else .error ⟨known, new⟩
  | known, none => .ok known
  | none, new => .ok new

/-- Enters a union unless it is there, and its alias. -/
def enterUnion (members : List Name) (aliasName : Option Name) :
    List UnionType → Except AliasConflict (List UnionType)
  | [] => .ok [⟨members, aliasName⟩]
  | union :: rest =>
    if union.members = members then
      (joinAlias union.aliasName aliasName).map fun joined => ⟨members, joined⟩ :: rest
    else (enterUnion members aliasName rest).map (union :: ·)

/-- Enters the members of a union as scalars and then the union. -/
def addUnion (table : TypeTable) (members : List Name) (aliasName : Option Name) :
    Except AliasConflict TypeTable :=
  let scalars := (members.foldl addScalar table).scalars
  (enterUnion members aliasName table.unions).map fun unions => { scalars, unions }

end TypeTable

end ClassModel
