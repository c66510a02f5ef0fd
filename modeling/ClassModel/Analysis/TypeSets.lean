import ClassModel.NameSet
import ClassModel.Table

/-! # Type sets

The scalars that can be reached from a node of a graph of choices. A node without choices has its
own scalars; a node with choices has those of the nodes chosen between. Visits go depth first and
keep what they find. A visit that runs into a node on its own path leaves that node out, so what
it finds may be incomplete and is not kept, unless it is where the visit started.
-/

namespace ClassModel

/-- A graph of choices between type sets. -/
structure ChoiceGraph where
  /-- For each node with choices the nodes chosen between. -/
  edges : Table Nat (List Nat)
  /-- The scalars of a node without choices. -/
  base : Nat → NameSet

/-- The type sets found so far. -/
abbrev TypeMemo := Table Nat NameSet

/-- A visit of a node under way. -/
structure TypeVisit where
  memo : TypeMemo
  types : NameSet := ∅
  /-- Whether the visit ran into a node on its path. -/
  cut : Bool := false

namespace TypeVisit

/-- The visit with further scalars. -/
def add (visit : TypeVisit) (types : NameSet) : TypeVisit :=
  { visit with types := visit.types.union types }

/-- The visit after that of a node on the way. -/
def join (visit inner : TypeVisit) : TypeVisit :=
  ⟨inner.memo, visit.types.union inner.types, visit.cut || inner.cut⟩

end TypeVisit

namespace ChoiceGraph

def hasChoices (graph : ChoiceGraph) (node : Nat) : Bool := graph.edges.contains node

def targets (graph : ChoiceGraph) (node : Nat) : List Nat := (graph.edges.get? node).getD []

/-- Visits a node with choices, given the path that leads to it. The bound on the depth is met by
the number of nodes with choices, as no node is on the path twice. -/
def visit (graph : ChoiceGraph) : Nat → List Nat → TypeMemo → Nat → TypeVisit
  | 0, _, memo, _ => { memo, cut := true }
  | depth + 1, path, memo, node =>
    let found := (graph.targets node).foldl (fun found target =>
      match found.memo.get? target with
      | some known => found.add known
      | none =>
        if target ∈ node :: path then { found with cut := true }
        else if graph.hasChoices target then
          found.join (graph.visit depth (node :: path) found.memo target)
        else found.add (graph.base target)) ({ memo } : TypeVisit)
    if found.cut && !path.isEmpty then found
    else { found with memo := found.memo.insert node found.types }

/-- The type set of a node, with what else was found on the way. -/
def typeSet (graph : ChoiceGraph) (memo : TypeMemo) (node : Nat) : NameSet × TypeMemo :=
  match memo.get? node with
  | some known => (known, memo)
  | none =>
    if graph.hasChoices node then
      let found := graph.visit graph.edges.size [] memo node
      (found.types, found.memo)
    else (graph.base node, memo)

end ChoiceGraph

end ClassModel
