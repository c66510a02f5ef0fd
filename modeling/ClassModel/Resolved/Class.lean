import ClassModel.Declaration.Subsystem
import ClassModel.Text.Lowercase

/-! # Resolved classes

A resolved class carries its number, the subsystem it belongs to, its identifier groups and its
attributes. An attribute starts with the hints of its declaration; resolving them replaces the
hints by navigations, and type resolution adds its type.
-/

namespace ClassModel

/-- An end of a relationship as a class sees it; a superclass end has no phrase. -/
structure Endpoint where
  rnum : Rnum
  className : Name
  phrase : Option Name
  side : Side
  deriving DecidableEq, Repr

/-- A navigation hint pinned to one end of a relationship. -/
structure Navigation where
  endpoint : Endpoint
  /-- The identifier attribute that the attribute stands in for. -/
  rename : Option Name
  deriving DecidableEq, Repr

/-- The type of an attribute: one scalar, or one of several scalars in ascending order. -/
inductive AttributeType where
  | scalar (name : Name)
  | union (members : List Name)
  deriving DecidableEq, Repr

/-- How a type is shown. -/
def AttributeType.render : AttributeType → String
  | .scalar name => name
  | .union members => "Union(" ++ ", ".intercalate members ++ ")"

namespace Resolved

/-- An attribute of a resolved class. -/
structure Attribute where
  name : Name
  scalar : Option Name
  union : Option (List Name)
  identifiers : List IdGroup
  relationships : List Rnum
  unionRelationships : List Rnum
  renames : List Rename
  ranking : Option Rnum
  navigations : List Navigation
  type : Option AttributeType
  /-- Hints that are still to be resolved. -/
  hints : List NavigationHint
  deriving DecidableEq, Repr

/-- An attribute with everything its declaration says and nothing resolved. -/
def Attribute.ofDeclaration (attr : Declaration.Attribute) : Attribute where
  name := attr.name
  scalar := attr.scalar
  union := attr.union
  identifiers := attr.identifiers
  relationships := attr.relationships
  unionRelationships := attr.unionRelationships
  renames := attr.renames
  ranking := attr.ranking
  navigations := []
  type := none
  hints := attr.hints

/-- A subsystem of the resolved model. -/
structure Subsystem where
  name : Name
  /-- The declared alias, or else the name. -/
  aliasName : Name
  domain : Option Name
  deriving DecidableEq, Repr

def Subsystem.ofDeclaration (subsystem : Declaration.Subsystem) : Subsystem :=
  ⟨subsystem.name, subsystem.aliasName.getD subsystem.name, subsystem.domain⟩

/-- A class of the resolved model. -/
structure Class where
  name : Name
  /-- Counted from one in the order in which classes enter the model, in 32 bits. -/
  number : Fin UInt32.size
  /-- The declaring subsystem, or the importing one of a class declared outside the run. -/
  subsystem : Name
  attributes : List Attribute
  ignoredAttributes : List Attribute
  identifiers : Identifiers
  deriving DecidableEq

namespace Class

/-- The class of a declaration. A number that is too large for 32 bits counts on from zero. -/
def ofDeclaration (cls : Declaration.Class) (number : Nat) (subsystem : Name) : Class where
  name := cls.name
  number := Fin.ofNat _ number
  subsystem := subsystem
  attributes := cls.attributes.map .ofDeclaration
  ignoredAttributes := cls.ignoredAttributes.map .ofDeclaration
  identifiers := .ofAttributes cls.attributes

/-- The regular attributes and then the ignored ones. -/
def allAttributes (cls : Class) : List Attribute := cls.attributes ++ cls.ignoredAttributes

def attribute? (cls : Class) (name : Name) : Option Attribute :=
  cls.allAttributes.find? (·.name = name)

def isIgnored (cls : Class) (name : Name) : Bool := cls.ignoredAttributes.any (·.name = name)

/-- Whether there is an attribute of the name, up to the case of ASCII letters. -/
def hasAttributeIgnoringCase (cls : Class) (name : Name) : Bool :=
  cls.allAttributes.any fun attr => Text.lowercaseAscii attr.name = Text.lowercaseAscii name

/-- Changes every attribute. -/
def mapAttributes (cls : Class) (change : Attribute → Attribute) : Class :=
  { cls with
    attributes := cls.attributes.map change
    ignoredAttributes := cls.ignoredAttributes.map change }

end Class

end Resolved

end ClassModel
