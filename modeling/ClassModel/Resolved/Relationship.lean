import ClassModel.Declaration.Relationship

/-! # Resolved relationships

A relationship with the subsystem that declares it, and what a class finds at its far ends.
-/

namespace ClassModel.Resolved

/-- A relationship of the resolved model. -/
structure Relationship where
  rnum : Rnum
  subsystem : Name
  shape : Shape
  deriving DecidableEq, Repr

namespace Relationship

def isOrdinal (relationship : Relationship) : Bool := relationship.rnum.isOrdinal

def associationClass? (relationship : Relationship) : Option Name :=
  relationship.shape.associationClass?

/-- The perspective on a side of an association. -/
def perspective? (relationship : Relationship) (side : Side) : Option Perspective :=
  match relationship.shape, side with
  | .association passive _ _, .passive => some passive
  | .association _ active _, .active => some active
  | _, _ => none

/-- The phrase of a side of an association. -/
def phrase? (relationship : Relationship) (side : Side) : Option Name :=
  (relationship.perspective? side).map (·.phrase)

/-- The sides that a class refers to, with the classes there; none if the class is not a
referring end. A reflexive association refers to its active side. -/
def farEnds? (relationship : Relationship) (className : Name) : Option (List (Side × Name)) :=
  match relationship.shape with
  | .association passive active (some associationClass) =>
    if associationClass = className then
      some [(.passive, passive.className), (.active, active.className)]
    else none
  | .association passive active none =>
    if passive.className = className then some [(.active, active.className)]
    else if active.className = className then some [(.passive, passive.className)]
    else none
  | .generalization superclass subclasses =>
    if className ∈ subclasses then some [(.superclass, superclass)] else none

end Relationship

end ClassModel.Resolved
