import ClassModel.Proofs.DisjointSetCalls

/-! # Trees stay shallow

The root of the smaller set is hung below the root of the larger one, and a look-up only raises elements to
their root. So a parent has at least twice the size that is kept at any of its children, and with every
step from an element up to its root the size kept doubles.
-/

namespace ClassModel.UnionFind

/-- A climb from an element to its root in so many steps. -/
inductive ClimbsIn (sets : UnionFind) : Nat → Nat → Nat → Prop
  | stop {element : Nat} (fixed : sets.parentOf element = element) : ClimbsIn sets 0 element element
  | step {steps element root : Nat} (child : sets.parentOf element ≠ element)
    (rest : ClimbsIn sets steps (sets.parentOf element) root) : ClimbsIn sets (steps + 1) element root

/-- A forest in which sizes at least double from every element to its parent. -/
structure Doubling (sets : UnionFind) : Prop extends Forest sets where
  doubles : ∀ element < sets.count, sets.parentOf element ≠ element →
    2 * sets.sizeOf element ≤ sets.sizeOf (sets.parentOf element)

variable {sets : UnionFind}

section Climbing

theorem Forest.climbsIn_root (forest : Forest sets) (element : Nat) :
    ∃ steps, ClimbsIn sets steps element (sets.root element) := by
  induction element using forest.climb_induction with
  | root element fixed =>
    rw [root_of_parentOf_eq fixed]
    exact ⟨0, .stop fixed⟩
  | step element _ child ih =>
    obtain ⟨steps, rest⟩ := ih
    rw [forest.root_parentOf] at rest
    exact ⟨steps + 1, .step child rest⟩

/-- A climb doubles the size with every step. -/
theorem Doubling.pow_mul_sizeOf_le (doubling : Doubling sets) {steps element root : Nat}
    (climbs : ClimbsIn sets steps element root) (inside : element < sets.count) :
    2 ^ steps * sets.sizeOf element ≤ sets.sizeOf root := by
  induction climbs with
  | stop => rw [Nat.pow_zero, Nat.one_mul]
  | @step steps element root child _ ih =>
    calc
      2 ^ (steps + 1) * sets.sizeOf element = 2 ^ steps * (2 * sets.sizeOf element) := by
        rw [Nat.pow_succ, Nat.mul_assoc]
      _ ≤ 2 ^ steps * sets.sizeOf (sets.parentOf element) :=
        Nat.mul_le_mul_left _ (doubling.doubles element inside child)
      _ ≤ sets.sizeOf root := ih (doubling.inRange element inside)

theorem Forest.sizeOf_le_root (forest : Forest sets) {element : Nat} (inside : element < sets.count) :
    sets.sizeOf element ≤ sets.sizeOf (sets.root element) := by
  by_cases fixed : sets.parentOf element = element
  · rw [root_of_parentOf_eq fixed]
  · exact Nat.le_of_lt (forest.sizeOf_lt_root inside fixed)

end Climbing

section Outside

/-- An element out of range is found to be alone. -/
theorem find_of_le {element : Nat} (outside : sets.count ≤ element) : sets.find element = (element, sets) := by
  have fixed := parentOf_of_le outside
  unfold find
  rw [root_of_parentOf_eq fixed]
  cases sets.count with
  | zero => rfl
  | succ steps => simp only [compress, fixed, if_true]

theorem Forest.alike_find (forest : Forest sets) (element : Nat) : Alike sets (sets.find element).2 := by
  by_cases inside : element < sets.count
  · exact (forest.find_spec inside).2
  · rw [find_of_le (Nat.le_of_not_lt inside)]
    exact .refl forest

/-- The state after two look-ups, from which a union links. -/
theorem Forest.alike_find_find (forest : Forest sets) (left right : Nat) :
    Alike sets ((sets.find left).2.find right).2 :=
  have found := forest.alike_find left
  found.trans (found.forest.alike_find right)

theorem Forest.sizeOf_of_le (forest : Forest sets) {element : Nat} (outside : sets.count ≤ element) :
    sets.sizeOf element = 0 := by
  rw [← forest.aligned] at outside
  rw [sizeOf, Array.getD_eq_getD_getElem?, Array.getElem?_eq_none outside, Option.getD_none]

/-- An element out of range, which has no size, is not linked. -/
theorem Forest.link_of_le (forest : Forest sets) {small big : Nat}
    (outside : sets.count ≤ small ∨ sets.count ≤ big) (noLarger : sets.sizeOf small ≤ sets.sizeOf big) :
    sets.link small big = sets := by
  have smallOutside : sets.count ≤ small := by
    rcases outside with smallOutside | bigOutside
    · exact smallOutside
    · by_contra inside
      have positive := forest.positive small (Nat.lt_of_not_le inside)
      rw [forest.sizeOf_of_le bigOutside] at noLarger
      omega
  have kept : sets.size.setIfInBounds big (sets.sizeOf big) = sets.size := by
    ext element _ inside
    · exact Array.size_setIfInBounds
    · rw [Array.getElem_setIfInBounds]
      split
      · rename_i same
        subst same
        rw [sizeOf, Array.getD_eq_getD_getElem?, Array.getElem?_eq_getElem inside, Option.getD_some]
      · rfl
  rw [UnionFind.link, Array.setIfInBounds_eq_of_size_le smallOutside, forest.sizeOf_of_le smallOutside,
    Nat.add_zero, kept]

/-- Joining with an element out of range does no more than look the other one up. -/
theorem Forest.union_of_le (forest : Forest sets) {left right : Nat}
    (outside : sets.count ≤ left ∨ sets.count ≤ right) :
    (sets.union left right).2 = ((sets.find left).2.find right).2 := by
  have looked := forest.alike_find_find left right
  have apart : ∀ element, sets.count ≤ element →
      ((sets.find left).2.find right).2.count ≤ sets.root element := fun element beyond => by
    rwa [root_of_parentOf_eq (parentOf_of_le beyond), looked.count]
  unfold union
  dsimp only
  have leftRoot : (sets.find left).1 = sets.root left := rfl
  have rightRoot : ((sets.find left).2.find right).1 = sets.root right :=
    congrFun (forest.alike_find left).root right
  rw [leftRoot, rightRoot]
  split
  · rfl
  · split
    · rename_i smaller
      exact looked.forest.link_of_le (outside.symm.imp (apart right) (apart left)) smaller
    · rename_i larger
      exact looked.forest.link_of_le (outside.imp (apart left) (apart right)) (Nat.le_of_not_le larger)

end Outside

section Calling

theorem doubling_singletons (count : Nat) : Doubling (singletons count) :=
  ⟨forest_singletons count, fun element _ child => absurd (parentOf_singletons count element) child⟩

/-- Raising elements to their root keeps a parent at least twice as large. -/
theorem Doubling.of_alike (doubling : Doubling sets) {other : UnionFind} (alike : Alike sets other) :
    Doubling other := by
  refine ⟨alike.forest, fun element inside child => ?_⟩
  rw [alike.count] at inside
  rw [alike.sizeOf]
  rcases alike.parentOf element with kept | raised
  · rw [kept] at child ⊢
    exact doubling.doubles element inside child
  · rw [raised] at child ⊢
    have below : sets.parentOf element ≠ element := fun fixed => child (root_of_parentOf_eq fixed)
    calc
      2 * sets.sizeOf element ≤ sets.sizeOf (sets.parentOf element) := doubling.doubles element inside below
      _ ≤ sets.sizeOf (sets.root (sets.parentOf element)) :=
        doubling.sizeOf_le_root (doubling.inRange element inside)
      _ = sets.sizeOf (sets.root element) := by rw [doubling.root_parentOf]

/-- A root hung below one with no smaller set has at most half of the joint size. -/
theorem Doubling.link (doubling : Doubling sets) {small big : Nat} (linkable : sets.Linkable small big) :
    Doubling (sets.link small big) := by
  have forest := doubling.toForest
  refine ⟨forest.link linkable, fun element inside child => ?_⟩
  obtain ⟨smallInside, bigInside, _, bigRoot, different, noLarger⟩ := linkable
  rw [count_link] at inside
  rw [parentOf_link smallInside] at child ⊢
  rw [forest.sizeOf_link bigInside, forest.sizeOf_link bigInside]
  by_cases below : element = small
  · rw [if_pos below, if_pos rfl, below, if_neg different]
    omega
  · rw [if_neg below] at child ⊢
    have notBig : element ≠ big := fun same => child (same ▸ bigRoot)
    have doubles := doubling.doubles element inside child
    rw [if_neg notBig]
    split
    · rename_i same
      rw [same] at doubles
      omega
    · exact doubles

/-- Every call keeps parents at least twice as large as their children. -/
theorem Doubling.call (doubling : Doubling sets) (next : Call) :
    Doubling (sets.call next) ∧ (sets.call next).count = sets.count := by
  have kept : ∀ other, Alike sets other → Doubling other ∧ other.count = sets.count :=
    fun other alike => ⟨doubling.of_alike alike, alike.count⟩
  cases next with
  | find element => exact kept _ (doubling.alike_find element)
  | same left right => exact kept _ (doubling.alike_find_find left right)
  | union left right =>
    by_cases inside : left < sets.count ∧ right < sets.count
    · obtain ⟨met, alike, ⟨_, ran⟩ | ⟨_, small, big, linkable, _, ran⟩⟩ :=
        doubling.union_cases inside.1 inside.2
      · rw [UnionFind.call, ran]
        exact kept met alike
      · rw [UnionFind.call, ran]
        exact ⟨(doubling.of_alike alike).link linkable, (count_link ..).trans alike.count⟩
    · rw [UnionFind.call, doubling.union_of_le (by omega)]
      exact kept _ (doubling.alike_find_find left right)

theorem Doubling.run (doubling : Doubling sets) (calls : List Call) :
    Doubling (sets.run calls) ∧ (sets.run calls).count = sets.count := by
  induction calls generalizing sets with
  | nil => exact ⟨doubling, rfl⟩
  | cons next rest ih =>
    obtain ⟨after, count⟩ := doubling.call next
    rw [← count]
    exact ih after

end Calling

/-- After any calls, also ones that name elements out of range, an element climbs to the root that a look-up
finds, and two to the number of steps to a root is at most the size kept there. -/
theorem two_pow_steps_le_sizeOf (count : Nat) (calls : List Call) {element : Nat} (inside : element < count) :
    let sets := (singletons count).run calls
    (∃ steps, ClimbsIn sets steps element (sets.find element).1) ∧
    ∀ steps root, ClimbsIn sets steps element root → 2 ^ steps ≤ sets.sizeOf root := by
  intro sets
  obtain ⟨doubling, size⟩ := (doubling_singletons count).run calls
  rw [count_singletons] at size
  rw [← size] at inside
  refine ⟨doubling.climbsIn_root element, fun steps root climbs => ?_⟩
  calc
    2 ^ steps ≤ 2 ^ steps * sets.sizeOf element :=
      Nat.le_mul_of_pos_right _ (doubling.positive element inside)
    _ ≤ sets.sizeOf root := doubling.pow_mul_sizeOf_le climbs inside

namespace Sample

/-- Eight elements joined in pairs, the pairs in pairs, and these. -/
def eightElements : List Call :=
  [.union 0 1, .union 2 3, .union 4 5, .union 6 7, .union 0 2, .union 4 6, .union 0 4]

end Sample

/-- The last of eight elements is three steps below its root, as many as its set allows. -/
theorem two_pow_steps_le_sizeOf_eightElements :
    let sets := (singletons 8).run Sample.eightElements
    7 < 8 ∧ ClimbsIn sets 3 7 0 ∧ sets.sizeOf 0 = 8 ∧ 2 ^ 3 ≤ sets.sizeOf 0 := by
  intro sets
  have climbs : ClimbsIn sets 3 7 0 :=
    .step (by decide +kernel) (.step (by decide +kernel) (.step (by decide +kernel) (.stop (by decide +kernel))))
  exact ⟨by decide, climbs, by decide +kernel,
    (two_pow_steps_le_sizeOf 8 Sample.eightElements (by decide)).2 3 0 climbs⟩

end ClassModel.UnionFind
