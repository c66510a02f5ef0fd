import ClassModel.Analysis.TypeSets
import ClassModel.Analysis.TypeSlots

/-! # Types

The type of every attribute. All attributes of a set of equals have the type set of that set:
a single scalar, or a union. Declared types must agree with it, and a scalar declared beside a
member list is the alias of the union.
-/

namespace ClassModel

/-- The type of a set of attributes, and the alias that they declare for it. -/
structure TypeResolution where
  type : AttributeType
  aliasName : Option Name
  deriving DecidableEq, Repr

namespace TypeResolution

/-- The type with the given scalars, if the declarations agree. -/
def decide? (types : NameSet) (scalar : Option Name) (union : Option NameSet) :
    Option TypeResolution :=
  let listed := union.filter (!·.isEmpty)
  if listed.any (· ≠ types) then none
  else
    match types.toList with
    | [only] => if scalar.any (· ≠ only) then none else some ⟨.scalar only, none⟩
    | members =>
      if scalar.isSome && listed.isNone then none else some ⟨.union members, scalar⟩

end TypeResolution

/-- The types of the sets looked at so far. -/
structure TypeAssignment where
  memo : TypeMemo := .empty
  resolved : Table Nat TypeResolution := .empty
  /-- The sets without any type. -/
  untyped : List Nat := []

namespace TypeAssignment

/-- Looks at a set, unless that is done. -/
def resolve (space : TypeSpace) (graph : ChoiceGraph) (known : TypeAssignment) (root : Nat) :
    Except AnalysisError TypeAssignment :=
  if known.resolved.contains root || known.untyped.contains root then .ok known
  else
    let (types, memo) := graph.typeSet known.memo root
    if types.isEmpty then .ok { known with memo, untyped := known.untyped ++ [root] }
    else
      match TypeResolution.decide? types (space.scalarOf? root) (space.unionOf? root) with
      | none => .error (.multipleTypeDefinitions (space.declarationsOf root))
      | some resolution =>
        .ok { known with memo, resolved := known.resolved.insert root resolution }

/-- The type of every set; each slot must have one. -/
def ofSpace (space : TypeSpace) (choiceLinks : List AttributeLink) :
    Except AnalysisError (Table Nat TypeResolution) := do
  match space.conflictingRoot? with
  | some root => .error (.multipleTypeDefinitions (space.declarationsOf root))
  | none =>
    let graph : ChoiceGraph := ⟨space.choiceEdges choiceLinks, space.declaredTypes⟩
    let found ← space.roots.foldlM (resolve space graph) {}
    match space.members.filter (found.untyped.contains ·.2) with
    | [] => .ok found.resolved
    | untyped => .error (.typeNotDefined (untyped.map (·.1.location)))

end TypeAssignment

/-- The types of the attributes of a model. -/
structure Typing where
  space : TypeSpace
  resolved : Table Nat TypeResolution

namespace Typing

/-- The type of an attribute with its alias. -/
def resolution? (typing : Typing) (className attr : Name) : Option TypeResolution :=
  (typing.space.rootOf? className attr).bind typing.resolved.get?

/-- Types the attributes of a model by its references. -/
def ofReferences (classes : Table Name Resolved.Class) (references : References) :
    Except AnalysisError Typing := do
  let space := TypeSpace.ofReferences classes.values references.typeLinks
  let resolved ← TypeAssignment.ofSpace space references.choiceLinks
  .ok ⟨space, resolved⟩

/-- A class with the type of every attribute. -/
def annotate (typing : Typing) (cls : Resolved.Class) : Resolved.Class :=
  cls.mapAttributes fun attr =>
    match typing.resolution? cls.name attr.name with
    | some resolution => { attr with type := some resolution.type }
    | none => attr

/-- Enters the type of an attribute. -/
def enterType (table : TypeTable) (resolution : TypeResolution) : Except AnalysisError TypeTable :=
  match resolution.type with
  | .scalar name => .ok (table.addScalar name)
  | .union members =>
    (table.addUnion members resolution.aliasName).mapError fun conflict =>
      .conflictingUnionAlias members [conflict.known, conflict.new]

/-- The type of every attribute of the model, regular before ignored, in the order of the classes. -/
def uses (typing : Typing) (classes : List Resolved.Class) : List TypeResolution :=
  classes.flatMap fun cls =>
    cls.allAttributes.filterMap fun attr => typing.resolution? cls.name attr.name

/-- The types in use. -/
def typeTable (typing : Typing) (classes : List Resolved.Class) : Except AnalysisError TypeTable :=
  (typing.uses classes).foldlM enterType {}

end Typing

end ClassModel
