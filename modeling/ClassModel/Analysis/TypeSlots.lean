import ClassModel.Analysis.References
import ClassModel.UnionFind

/-! # Type slots

A slot is an attribute of a class by its name, with the types that its first declaration gives
it. Matched attributes have one type, so the slots divide into sets of equals. An attribute that
chooses over a relationship has a further choice of type in the set of each of its targets.
-/

namespace ClassModel

/-- An attribute of a class by name, with its declared types. -/
structure TypeSlot where
  location : Location
  scalar : Option Name
  union : Option NameSet
  deriving DecidableEq

namespace TypeSlot

/-- The slot of an attribute. -/
def ofAttribute (cls : Resolved.Class) (attr : Resolved.Attribute) : TypeSlot where
  location := ⟨cls.name, attr.name, cls.subsystem⟩
  scalar := attr.scalar
  union := attr.union.map .ofList

/-- The types that a slot declares. -/
def declarations (slot : TypeSlot) : List TypeDeclaration :=
  (slot.scalar.map fun scalar => ⟨slot.location, scalar⟩).toList ++
    (slot.union.map fun members => ⟨slot.location, (AttributeType.union members.toList).render⟩).toList

end TypeSlot

/-- A class and the name of one of its attributes. -/
abbrev SlotKey := Name × Name

/-- The slots of a model, in the order of the classes and their attributes. -/
abbrev SlotTable := Table SlotKey TypeSlot

namespace SlotTable

/-- Enters the slot of an attribute; of several attributes of one name the first one counts. -/
def enter (cls : Resolved.Class) (slots : SlotTable) (attr : Resolved.Attribute) : SlotTable :=
  if slots.contains (cls.name, attr.name) then slots
  else slots.insert (cls.name, attr.name) (.ofAttribute cls attr)

def ofClasses (classes : List Resolved.Class) : SlotTable :=
  classes.foldl (fun slots cls => cls.allAttributes.foldl (enter cls) slots) .empty

/-- The number of a slot, counted from zero. -/
def number? (slots : SlotTable) (key : SlotKey) : Option Nat := slots.keys.idxOf? key

/-- The numbers of the two ends of a link. -/
def ends? (slots : SlotTable) (link : AttributeLink) : Option (Nat × Nat) :=
  (slots.number? (link.className, link.attr)).bind fun source =>
    (slots.number? (link.targetClass, link.targetAttr)).map (source, ·)

/-- The set of equals that each slot belongs to, by the number of one of its members. -/
def representatives (slots : SlotTable) (links : List AttributeLink) : List Nat :=
  ((UnionFind.singletons slots.size).unionAll (links.filterMap slots.ends?)).roots

end SlotTable

/-- The slots of a model with the sets that they belong to. -/
structure TypeSpace where
  slots : SlotTable
  /-- For each slot the set it belongs to. -/
  roots : List Nat

namespace TypeSpace

def ofReferences (classes : List Resolved.Class) (links : List AttributeLink) : TypeSpace :=
  let slots := SlotTable.ofClasses classes
  ⟨slots, slots.representatives links⟩

/-- The set of an attribute. -/
def rootOf? (space : TypeSpace) (className attr : Name) : Option Nat :=
  (space.slots.number? (className, attr)).bind (space.roots[·]?)

/-- Every slot with its set. -/
def members (space : TypeSpace) : List (TypeSlot × Nat) := space.slots.values.zip space.roots

/-- The slots of a set, in order. -/
def slotsOf (space : TypeSpace) (root : Nat) : List TypeSlot :=
  (space.members.filter (·.2 = root)).map (·.1)

/-- The first scalar that a set declares. -/
def scalarOf? (space : TypeSpace) (root : Nat) : Option Name :=
  (space.slotsOf root).findSome? (·.scalar)

/-- The first member list that a set declares. -/
def unionOf? (space : TypeSpace) (root : Nat) : Option NameSet :=
  (space.slotsOf root).findSome? (·.union)

/-- Every type that a set declares. -/
def declarationsOf (space : TypeSpace) (root : Nat) : List TypeDeclaration :=
  (space.slotsOf root).flatMap (·.declarations)

/-- Whether a slot declares another type than the first one of its set. -/
def deviates (space : TypeSpace) (member : TypeSlot × Nat) : Bool :=
  member.1.scalar.any (some · ≠ space.scalarOf? member.2) ||
    member.1.union.any (some · ≠ space.unionOf? member.2)

/-- The set of the first slot that deviates from its set. -/
def conflictingRoot? (space : TypeSpace) : Option Nat :=
  (space.members.find? space.deviates).map (·.2)

/-- The scalars that a set without choices may have: its member list if that is not empty, else its
scalar. -/
def declaredTypes (space : TypeSpace) (root : Nat) : NameSet :=
  match (space.unionOf? root).filter (!·.isEmpty), space.scalarOf? root with
  | some members, _ => members
  | none, some scalar => NameSet.empty.insert scalar
  | none, none => ∅

/-- For each set with choices the sets chosen between, without repeats. -/
def choiceEdges (space : TypeSpace) (links : List AttributeLink) : Table Nat (List Nat) :=
  (links.filterMap fun link =>
    (space.rootOf? link.className link.attr).bind fun source =>
      (space.rootOf? link.targetClass link.targetAttr).map (source, ·)).foldl
    (fun edges (source, target) => edges.update source [] fun targets =>
      if targets.contains target then targets else targets ++ [target]) .empty

end TypeSpace

end ClassModel
