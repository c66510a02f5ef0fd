import ClassModel.Identifier
import ClassModel.Rnum

/-! # Relationship declarations

A relationship is a binary association, possibly with an association class, or a generalization.
An ordinal relationship has the shape of an association with one class on both sides. A navigation
or a reference points at a side of a relationship.
-/

namespace ClassModel

/-- How many instances one perspective allows. -/
inductive Multiplicity where
  | one
  | many
  deriving DecidableEq, Repr

/-- One side of a binary association. -/
structure Perspective where
  className : Name
  phrase : Name
  multiplicity : Multiplicity
  conditional : Bool := false
  deriving DecidableEq, Repr

/-- The shape of a relationship. -/
inductive Shape where
  | association (passive active : Perspective) (associationClass : Option Name)
  | generalization (superclass : Name) (subclasses : List Name)
  deriving DecidableEq, Repr

/-- An end of a relationship. -/
inductive Side where
  /-- The passive perspective of a binary association. -/
  | passive
  /-- The active perspective of a binary association. -/
  | active
  /-- The superclass end of a generalization. -/
  | superclass
  deriving DecidableEq, Repr

/-- How a side is shown. -/
def Side.label : Side → String
  | .passive => "P"
  | .active => "T"
  | .superclass => "superclass"

namespace Shape

/-- Every class that the shape names, the association class or the superclass first. -/
def classNames : Shape → List Name
  | .association passive active associationClass =>
    associationClass.toList ++ [passive.className, active.className]
  | .generalization superclass subclasses => superclass :: subclasses

def associationClass? : Shape → Option Name
  | .association _ _ associationClass => associationClass
  | .generalization _ _ => none

/-- An association with one class on both sides and no association class. -/
def isPlainReflexive : Shape → Bool
  | .association passive active none => passive.className = active.className
  | _ => false

end Shape

namespace Declaration

/-- A relationship as declared. -/
structure Relationship where
  rnum : Rnum
  shape : Shape
  deriving DecidableEq, Repr

namespace Relationship

def association (rnum : Rnum) (passive active : Perspective) : Relationship :=
  ⟨rnum, .association passive active none⟩

def generalization (rnum : Rnum) (superclass : Name) (subclasses : List Name) : Relationship :=
  ⟨rnum, .generalization superclass subclasses⟩

/-- Gives an association its association class; a generalization stays as it is. -/
def withAssociationClass (relationship : Relationship) (className : Name) : Relationship :=
  match relationship.shape with
  | .association passive active _ =>
    { relationship with shape := .association passive active (some className) }
  | .generalization _ _ => relationship

/-- Every class that the relationship names. -/
def classNames (relationship : Relationship) : List Name := relationship.shape.classNames

end Relationship

end Declaration

end ClassModel
