import ClassModel.Identifier
import ClassModel.Rnum

/-! # Attribute declarations

What a modeller writes down about an attribute. Everything but the name is optional; a missing
member list of a union type and an empty one are told apart.
-/

namespace ClassModel

/-- Over a relationship, an attribute stands in for this identifier attribute. -/
structure Rename where
  rnum : Rnum
  source : Name
  deriving DecidableEq, Repr

/-- A partly specified traversal of a relationship. -/
structure NavigationHint where
  rnum : Option Rnum := none
  target : Option Name := none
  phrase : Option Name := none
  /-- The identifier attribute that the attribute stands in for. -/
  rename : Option Name := none
  deriving DecidableEq, Repr

namespace NavigationHint

def withRnum (hint : NavigationHint) (rnum : Rnum) : NavigationHint := { hint with rnum := some rnum }

def withTarget (hint : NavigationHint) (target : Name) : NavigationHint :=
  { hint with target := some target }

def withPhrase (hint : NavigationHint) (phrase : Name) : NavigationHint :=
  { hint with phrase := some phrase }

def withRename (hint : NavigationHint) (source : Name) : NavigationHint :=
  { hint with rename := some source }

end NavigationHint

namespace Declaration

/-- An attribute as declared. -/
structure Attribute where
  name : Name
  /-- The declared scalar type. -/
  scalar : Option Name := none
  /-- The declared members of a union type. -/
  union : Option (List Name) := none
  identifiers : List IdGroup := []
  relationships : List Rnum := []
  /-- Relationships whose formalized types the attribute chooses between. -/
  unionRelationships : List Rnum := []
  hints : List NavigationHint := []
  renames : List Rename := []
  /-- The ordinal relationship that the attribute ranks. -/
  ranking : Option Rnum := none
  deriving DecidableEq, Repr

namespace Attribute

def withType (attr : Attribute) (scalar : Name) : Attribute :=
  { attr with scalar := some scalar }

def withUnion (attr : Attribute) (members : List Name) : Attribute :=
  { attr with union := some members }

def withIdentifier (attr : Attribute) (group : IdGroup) : Attribute :=
  { attr with identifiers := attr.identifiers ++ [group] }

def withRelationship (attr : Attribute) (rnum : Rnum) : Attribute :=
  { attr with relationships := attr.relationships ++ [rnum] }

def withUnionRelationship (attr : Attribute) (rnum : Rnum) : Attribute :=
  { attr with unionRelationships := attr.unionRelationships ++ [rnum] }

def withHint (attr : Attribute) (hint : NavigationHint) : Attribute :=
  { attr with hints := attr.hints ++ [hint] }

def withRename (attr : Attribute) (rnum : Rnum) (source : Name) : Attribute :=
  { attr with renames := attr.renames ++ [⟨rnum, source⟩] }

def withRanking (attr : Attribute) (rnum : Rnum) : Attribute :=
  { attr with ranking := some rnum }

end Attribute

end Declaration

/-- The identifier groups that the attributes of a class make up. -/
def Identifiers.ofAttributes (attributes : List Declaration.Attribute) : Identifiers :=
  .ofMemberships (attributes.map fun attr => (attr.name, attr.identifiers))

end ClassModel
