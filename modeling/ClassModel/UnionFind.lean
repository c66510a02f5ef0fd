/-! # Disjoint sets

A partition of the numbers below a bound as a forest: every element points to its parent, a
root to itself, and a root knows the size of its set. Looking an element up makes its whole path
point at the root; joining two sets hangs the smaller tree below the root of the larger one.
-/

namespace ClassModel

/-- A partition of the numbers below `parent.size`. -/
structure UnionFind where
  parent : Array Nat
  size : Array Nat
  deriving DecidableEq, Repr

namespace UnionFind

/-- Every number below the bound in a set of its own. -/
def singletons (count : Nat) : UnionFind := ⟨Array.range count, Array.replicate count 1⟩

/-- How many elements are divided into sets. -/
def count (sets : UnionFind) : Nat := sets.parent.size

/-- The parent of an element; an element out of range is its own. -/
def parentOf (sets : UnionFind) (element : Nat) : Nat := sets.parent.getD element element

/-- The size kept at a root. -/
def sizeOf (sets : UnionFind) (root : Nat) : Nat := sets.size.getD root 0

/-- Follows parents upward until a root, for a bounded number of steps. -/
def climb (sets : UnionFind) : Nat → Nat → Nat
  | 0, element => element
  | steps + 1, element =>
    if sets.parentOf element = element then element else climb sets steps (sets.parentOf element)

/-- The root above an element. No path is longer than the number of elements. -/
def root (sets : UnionFind) (element : Nat) : Nat := sets.climb sets.count element

/-- Makes an element and everything between it and the root point at the root. -/
def compress (root : Nat) : Nat → Nat → UnionFind → UnionFind
  | 0, _, sets => sets
  | steps + 1, element, sets =>
    let next := sets.parentOf element
    if next = root then sets
    else compress root steps next { sets with parent := sets.parent.setIfInBounds element root }

/-- The root above an element, and the partition with the path to it compressed. -/
def find (sets : UnionFind) (element : Nat) : Nat × UnionFind :=
  let root := sets.root element
  (root, compress root sets.count element sets)

/-- Hangs one root below another. -/
def link (sets : UnionFind) (small big : Nat) : UnionFind where
  parent := sets.parent.setIfInBounds small big
  size := sets.size.setIfInBounds big (sets.sizeOf big + sets.sizeOf small)

/-- Joins the sets of two elements; tells whether they were two. -/
def union (sets : UnionFind) (left right : Nat) : Bool × UnionFind :=
  let (leftRoot, sets) := sets.find left
  let (rightRoot, sets) := sets.find right
  if leftRoot = rightRoot then (false, sets)
  else if sets.sizeOf rightRoot ≤ sets.sizeOf leftRoot then (true, sets.link rightRoot leftRoot)
  else (true, sets.link leftRoot rightRoot)

/-- Whether two elements are in one set. -/
def same (sets : UnionFind) (left right : Nat) : Bool × UnionFind :=
  let (leftRoot, sets) := sets.find left
  let (rightRoot, sets) := sets.find right
  (leftRoot = rightRoot, sets)

/-- Joins the sets of each pair in turn. -/
def unionAll (sets : UnionFind) (pairs : List (Nat × Nat)) : UnionFind :=
  pairs.foldl (fun sets pair => (sets.union pair.1 pair.2).2) sets

/-- The root above every element. -/
def roots (sets : UnionFind) : List Nat := (List.range sets.count).map sets.root

end UnionFind

end ClassModel
