import ClassModel.AnalysisError
import ClassModel.Resolved.Model

/-! # Endpoints and navigations

Every relationship that is not ordinal offers ends to the classes that take part in it. A
navigation hint of an attribute is pinned to the one end, of those that its class sees, which
agrees with everything the hint says.
-/

namespace ClassModel

namespace Resolved.Relationship

/-- Every end with the class that sees it: the association class sees both sides, else each side
is seen from the opposite one, and subclasses see their superclass. -/
def endpoints (relationship : Relationship) : List (Name × Endpoint) :=
  match relationship.shape with
  | .association passive active associationClass =>
    [(associationClass.getD active.className,
        ⟨relationship.rnum, passive.className, some passive.phrase, .passive⟩),
      (associationClass.getD passive.className,
        ⟨relationship.rnum, active.className, some active.phrase, .active⟩)]
  | .generalization superclass subclasses =>
    subclasses.map fun subclass => (subclass, ⟨relationship.rnum, superclass, none, .superclass⟩)

end Resolved.Relationship

/-- The ends that a class sees, without repeats, in the order of the relationships. -/
def Endpoint.seenFrom (relationships : List Resolved.Relationship) (className : Name) :
    List Endpoint :=
  ((((relationships.filter (!·.isOrdinal)).flatMap (·.endpoints)).filter
    (·.1 = className)).map (·.2)).eraseDups

/-- Whether an end agrees with everything that a hint says. -/
def NavigationHint.agrees (hint : NavigationHint) (endpoint : Endpoint) : Bool :=
  hint.rnum.all (· = endpoint.rnum) && hint.target.all (· = endpoint.className) &&
    hint.phrase.all (some · = endpoint.phrase)

/-- Pins a hint to the only end that agrees with it. -/
def NavigationHint.pin (hint : NavigationHint) (endpoints : List Endpoint) :
    Except NavigationFailure Navigation :=
  match endpoints.filter hint.agrees with
  | [] => .error .noSolution
  | [endpoint] => .ok ⟨endpoint, hint.rename⟩
  | several => .error (.multipleSolutions several.length)

namespace Resolved

/-- An attribute with its hints pinned to the ends that its class sees. -/
def Attribute.navigate (className : Name) (endpoints : List Endpoint) (attr : Attribute) :
    Except AnalysisError Attribute := do
  let navigations ← attr.hints.mapM fun hint =>
    match hint.pin endpoints with
    | .error failure => .error (.badNavigation className attr.name hint failure)
    | .ok navigation => .ok navigation
  .ok { attr with navigations := attr.navigations ++ navigations, hints := [] }

/-- A class with the hints of all its attributes pinned. -/
def Class.navigate (cls : Class) (endpoints : List Endpoint) : Except AnalysisError Class := do
  let attributes ← cls.attributes.mapM (Attribute.navigate cls.name endpoints)
  let ignoredAttributes ← cls.ignoredAttributes.mapM (Attribute.navigate cls.name endpoints)
  .ok { cls with attributes, ignoredAttributes }

end Resolved

/-- All classes with their hints pinned, in the order of the table. -/
def navigateClasses (relationships : Table Rnum Resolved.Relationship)
    (classes : Table Name Resolved.Class) : Except AnalysisError (Table Name Resolved.Class) :=
  classes.mapValuesM fun className cls =>
    cls.navigate (Endpoint.seenFrom relationships.values className)

end ClassModel
