import Mathlib.Logic.Relation
import Mathlib.Tactic.ByContra
import ClassModel.UnionFind

/-! # The partition of a forest

As long as sizes grow from every element to its parent, the parents form a forest, every climb ends
at a root, and the root of an element is the only root that its parents lead to. Looking elements
up keeps all roots, and joining two elements joins their sets, so that joining the pairs of a list
generates the least equivalence with those pairs.
-/

namespace ClassModel.UnionFind

/-- Parents are in range, every size is positive, and sizes grow along parents. -/
structure Forest (sets : UnionFind) : Prop where
  aligned : sets.size.size = sets.count
  inRange : ∀ element < sets.count, sets.parentOf element < sets.count
  positive : ∀ element < sets.count, 0 < sets.sizeOf element
  grows : ∀ element < sets.count, sets.parentOf element ≠ element →
    sets.sizeOf element < sets.sizeOf (sets.parentOf element)

section Climbing

theorem parentOf_of_le {sets : UnionFind} {element : Nat} (outside : sets.count ≤ element) :
    sets.parentOf element = element := by
  unfold parentOf
  rw [Array.getD_eq_getD_getElem?, Array.getElem?_eq_none outside, Option.getD_none]

/-- The elements with a larger size. -/
def larger (sets : UnionFind) (element : Nat) : List Nat :=
  (List.range sets.count).filter fun other => sets.sizeOf element < sets.sizeOf other

theorem length_larger_lt {sets : UnionFind} {element : Nat} (inside : element < sets.count) :
    (sets.larger element).length < sets.count := by
  have absent : element ∉ sets.larger element := by simp [larger]
  have shorter : (sets.larger element).length ≠ (List.range sets.count).length := by
    intro same
    rw [larger, List.length_filter_eq_length_iff] at same
    exact absent (List.mem_filter.mpr ⟨List.mem_range.mpr inside, same _ (List.mem_range.mpr inside)⟩)
  have bound := List.length_filter_le (fun other => decide (sets.sizeOf element < sets.sizeOf other))
    (List.range sets.count)
  rw [List.length_range] at shorter bound
  exact Nat.lt_of_le_of_ne bound shorter

variable {sets : UnionFind}

/-- Fewer elements are larger than the parent of an element than are larger than the element. -/
theorem Forest.larger_parentOf (forest : Forest sets) {element : Nat} (inside : element < sets.count)
    (child : sets.parentOf element ≠ element) :
    (sets.larger (sets.parentOf element)).length < (sets.larger element).length := by
  have grows := forest.grows element inside child
  have nested : sets.larger (sets.parentOf element) =
      (sets.larger element).filter fun other => sets.sizeOf (sets.parentOf element) < sets.sizeOf other := by
    unfold larger
    rw [List.filter_filter]
    refine List.filter_congr fun other _ => ?_
    rw [← Bool.decide_and, decide_eq_decide]
    omega
  have parent : sets.parentOf element ∈ sets.larger element := by
    refine List.mem_filter.mpr ⟨List.mem_range.mpr (forest.inRange element inside), ?_⟩
    exact decide_eq_true grows
  rw [nested]
  refine Nat.lt_of_le_of_ne (List.length_filter_le ..) fun same => ?_
  have above := List.length_filter_eq_length_iff.mp same _ parent
  simp at above

/-- What holds of every root, and of an element if of its parent, holds of every element. -/
theorem Forest.climb_induction (forest : Forest sets) {motive : Nat → Prop}
    (root : ∀ element, sets.parentOf element = element → motive element)
    (step : ∀ element < sets.count, sets.parentOf element ≠ element →
      motive (sets.parentOf element) → motive element) (element : Nat) : motive element := by
  induction bound : (sets.larger element).length using Nat.strongRecOn generalizing element with
  | ind length ih =>
    by_cases fixed : sets.parentOf element = element
    · exact root element fixed
    · have inside : element < sets.count :=
        Nat.lt_of_not_le fun outside => fixed (parentOf_of_le outside)
      refine step element inside fixed (ih _ ?_ _ rfl)
      rw [← bound]
      exact forest.larger_parentOf inside fixed

theorem climb_of_parentOf_eq {element : Nat} (fixed : sets.parentOf element = element) (steps : Nat) :
    sets.climb steps element = element := by
  cases steps with
  | zero => rfl
  | succ steps => exact if_pos fixed

/-- A climb with at least as many steps as there are larger elements ends at a root. -/
theorem Forest.parentOf_climb (forest : Forest sets) {steps element : Nat}
    (enough : (sets.larger element).length ≤ steps) :
    sets.parentOf (sets.climb steps element) = sets.climb steps element := by
  induction steps generalizing element with
  | zero =>
    by_contra child
    have inside : element < sets.count :=
      Nat.lt_of_not_le fun outside => child (parentOf_of_le outside)
    have fewer := forest.larger_parentOf inside child
    omega
  | succ steps ih =>
    by_cases fixed : sets.parentOf element = element
    · rw [climb_of_parentOf_eq fixed, fixed]
    · have inside : element < sets.count :=
        Nat.lt_of_not_le fun outside => fixed (parentOf_of_le outside)
      have fewer := forest.larger_parentOf inside fixed
      rw [climb, if_neg fixed]
      exact ih (by omega)

/-- A climb that ends at a root ends there with one step more. -/
theorem climb_succ_of_parentOf {steps element : Nat}
    (fixed : sets.parentOf (sets.climb steps element) = sets.climb steps element) :
    sets.climb (steps + 1) element = sets.climb steps element := by
  induction steps generalizing element with
  | zero => exact if_pos fixed
  | succ steps ih =>
    rw [climb]
    split
    · rename_i root
      rw [climb_of_parentOf_eq root]
    · rename_i child
      rw [climb, if_neg child] at fixed
      rw [ih fixed, climb, if_neg child]

@[simp] theorem root_of_parentOf_eq {element : Nat} (fixed : sets.parentOf element = element) :
    sets.root element = element :=
  climb_of_parentOf_eq fixed _

/-- An element whose parent is not its root is not a root. -/
theorem parentOf_ne_of_ne_root {element : Nat} (further : sets.parentOf element ≠ sets.root element) :
    sets.parentOf element ≠ element :=
  fun fixed => further (fixed.trans (root_of_parentOf_eq fixed).symm)

/-- The root of an element is its own parent. -/
theorem Forest.parentOf_root (forest : Forest sets) (element : Nat) :
    sets.parentOf (sets.root element) = sets.root element := by
  by_cases inside : element < sets.count
  · exact forest.parentOf_climb (Nat.le_of_lt (length_larger_lt inside))
  · have fixed := parentOf_of_le (Nat.le_of_not_lt inside)
    rw [root_of_parentOf_eq fixed, fixed]

/-- An element has the root of its parent. -/
theorem Forest.root_parentOf (forest : Forest sets) (element : Nat) :
    sets.root (sets.parentOf element) = sets.root element := by
  by_cases fixed : sets.parentOf element = element
  · rw [fixed]
  · have longer : sets.climb (sets.count + 1) element = sets.root element :=
      climb_succ_of_parentOf (forest.parentOf_root element)
    rw [climb, if_neg fixed] at longer
    exact longer

/-- The roots are the only map that keeps roots and is the same for an element and its parent. -/
theorem Forest.root_unique (forest : Forest sets) {assigned : Nat → Nat}
    (fixed : ∀ element, sets.parentOf element = element → assigned element = element)
    (climbs : ∀ element, assigned (sets.parentOf element) = assigned element) (element : Nat) :
    sets.root element = assigned element := by
  induction element using forest.climb_induction with
  | root element same => rw [root_of_parentOf_eq same, fixed element same]
  | step element _ _ ih => rw [← forest.root_parentOf, ih, climbs]

theorem Forest.root_lt (forest : Forest sets) {element : Nat} (inside : element < sets.count) :
    sets.root element < sets.count := by
  induction element using forest.climb_induction with
  | root element same => rwa [root_of_parentOf_eq same]
  | step element _ _ ih =>
    rw [← forest.root_parentOf]
    exact ih (forest.inRange element inside)

theorem Forest.root_root (forest : Forest sets) (element : Nat) :
    sets.root (sets.root element) = sets.root element :=
  root_of_parentOf_eq (forest.parentOf_root element)

/-- An element that is not a root is smaller than its root. -/
theorem Forest.sizeOf_lt_root (forest : Forest sets) {element : Nat} (inside : element < sets.count)
    (child : sets.parentOf element ≠ element) :
    sets.sizeOf element < sets.sizeOf (sets.root element) := by
  induction element using forest.climb_induction with
  | root element same => exact absurd same child
  | step element _ _ ih =>
    have grows := forest.grows element inside child
    rw [← forest.root_parentOf]
    by_cases fixed : sets.parentOf (sets.parentOf element) = sets.parentOf element
    · rwa [root_of_parentOf_eq fixed]
    · exact Nat.lt_trans grows (ih (forest.inRange element inside) fixed)

end Climbing

section Singletons

/-- A view that agrees on what generates an equivalence agrees on all of it. -/
theorem eq_of_eqvGen {α β : Type} {related : α → α → Prop} (view : α → β)
    (agrees : ∀ left right, related left right → view left = view right) {first second : α}
    (linked : Relation.EqvGen related first second) : view first = view second :=
  congrArg (Quot.lift view agrees) (Quot.eqvGen_sound linked)

@[simp] theorem parentOf_singletons (count element : Nat) :
    (singletons count).parentOf element = element := by
  unfold parentOf singletons
  rw [Array.getD_eq_getD_getElem?]
  by_cases inside : element < count
  · simp [inside]
  · simp [Nat.le_of_not_lt inside]

@[simp] theorem count_singletons (count : Nat) : (singletons count).count = count := by
  simp [UnionFind.count, singletons]

@[simp] theorem root_singletons (count element : Nat) : (singletons count).root element = element :=
  root_of_parentOf_eq (parentOf_singletons count element)

/-- No two elements are in one set, so the sets are generated by no pairs. -/
theorem root_singletons_eq_iff {count : Nat} (first second : Nat) :
    (singletons count).root first = (singletons count).root second ↔
      Relation.EqvGen (fun _ _ => False) first second := by
  rw [root_singletons, root_singletons]
  constructor
  · rintro rfl
    exact .refl _
  · exact eq_of_eqvGen id fun _ _ => False.elim

theorem forest_singletons (count : Nat) : Forest (singletons count) := by
  refine ⟨?_, ?_, ?_, ?_⟩
  · simp [UnionFind.count, singletons]
  · intro element inside
    rwa [parentOf_singletons]
  · intro element inside
    rw [count_singletons] at inside
    simp [sizeOf, singletons, inside]
  · intro element _ child
    exact absurd (parentOf_singletons count element) child

end Singletons

section Finding

variable {sets : UnionFind}

/-- A forest with the sizes and roots of another one, in which an element has its parent or its root above
it. -/
structure Alike (sets other : UnionFind) : Prop where
  forest : Forest other
  count : other.count = sets.count
  sizeOf : other.sizeOf = sets.sizeOf
  root : other.root = sets.root
  parentOf : ∀ element,
    other.parentOf element = sets.parentOf element ∨ other.parentOf element = sets.root element

theorem Alike.refl (forest : Forest sets) : Alike sets sets := ⟨forest, rfl, rfl, rfl, fun _ => .inl rfl⟩

theorem Alike.trans {other third : UnionFind} (first : Alike sets other) (second : Alike other third) :
    Alike sets third where
  forest := second.forest
  count := second.count.trans first.count
  sizeOf := second.sizeOf.trans first.sizeOf
  root := second.root.trans first.root
  parentOf element := by
    rcases second.parentOf element with kept | raised
    · rw [kept]
      exact first.parentOf element
    · rw [raised, first.root]
      exact .inr rfl

/-- The partition with another parent for one element. -/
def redirect (sets : UnionFind) (element parent : Nat) : UnionFind :=
  { sets with parent := sets.parent.setIfInBounds element parent }

@[simp] theorem count_redirect (element parent : Nat) : (sets.redirect element parent).count = sets.count :=
  Array.size_setIfInBounds

theorem parentOf_redirect {element : Nat} (inside : element < sets.count) (parent other : Nat) :
    (sets.redirect element parent).parentOf other =
      if other = element then parent else sets.parentOf other := by
  unfold parentOf redirect
  rw [Array.getD_eq_getD_getElem?, Array.getElem?_setIfInBounds]
  by_cases same : element = other
  · subst same
    simp [UnionFind.count] at inside
    simp [inside]
  · rw [if_neg same, if_neg (Ne.symm same), Array.getD_eq_getD_getElem?]

/-- An element that points at its root instead of its parent keeps its root. -/
theorem Forest.alike_redirect (forest : Forest sets) {element : Nat} (inside : element < sets.count)
    (child : sets.parentOf element ≠ element) :
    Alike sets (sets.redirect element (sets.root element)) := by
  have parents := parentOf_redirect inside (sets.root element)
  have redirected : Forest (sets.redirect element (sets.root element)) := by
    refine ⟨?_, ?_, ?_, ?_⟩
    · rw [count_redirect]
      exact forest.aligned
    · intro other within
      rw [count_redirect] at within ⊢
      rw [parents]
      split
      · exact forest.root_lt inside
      · exact forest.inRange other within
    · intro other within
      rw [count_redirect] at within
      exact forest.positive other within
    · intro other within above
      rw [count_redirect] at within
      rw [parents] at above ⊢
      split
      · rename_i same
        subst same
        exact forest.sizeOf_lt_root inside child
      · rename_i different
        rw [if_neg different] at above
        exact forest.grows other within above
  refine ⟨redirected, count_redirect .., rfl, funext fun other => ?_, fun other => ?_⟩
  · refine redirected.root_unique (fun root same => ?_) (fun other => ?_) other
    · rw [parents] at same
      split at same
      · rename_i here
        subst here
        rw [same]
      · exact root_of_parentOf_eq same
    · rw [parents]
      split
      · rename_i same
        rw [same, forest.root_root]
      · exact forest.root_parentOf other
  · rw [parents]
    split
    · rename_i same
      rw [same]
      exact .inr rfl
    · exact .inl rfl

/-- Compressing a path keeps all roots. -/
theorem Forest.alike_compress (forest : Forest sets) {steps element root : Nat}
    (inside : element < sets.count) (above : sets.root element = root) :
    Alike sets (compress root steps element sets) := by
  induction steps generalizing sets element with
  | zero => exact .refl forest
  | succ steps ih =>
    simp only [compress]
    split
    · exact .refl forest
    · rename_i further
      subst above
      have child := parentOf_ne_of_ne_root further
      have alike := forest.alike_redirect inside child
      refine alike.trans (ih alike.forest ?_ ?_)
      · rw [alike.count]
        exact forest.inRange element inside
      · rw [alike.root, forest.root_parentOf]

theorem Forest.find_spec (forest : Forest sets) {element : Nat} (inside : element < sets.count) :
    (sets.find element).1 = sets.root element ∧ Alike sets (sets.find element).2 :=
  ⟨rfl, forest.alike_compress inside rfl⟩

end Finding

section Joining

variable {sets : UnionFind}

@[simp] theorem count_link (small big : Nat) : (sets.link small big).count = sets.count :=
  Array.size_setIfInBounds

theorem parentOf_link {small : Nat} (inside : small < sets.count) (big other : Nat) :
    (sets.link small big).parentOf other = if other = small then big else sets.parentOf other :=
  parentOf_redirect inside big other

theorem Forest.sizeOf_link (forest : Forest sets) {big : Nat} (inside : big < sets.count)
    (small other : Nat) :
    (sets.link small big).sizeOf other =
      if other = big then sets.sizeOf big + sets.sizeOf small else sets.sizeOf other := by
  unfold link
  rw [sizeOf, Array.getD_eq_getD_getElem?, Array.getElem?_setIfInBounds]
  by_cases same : big = other
  · subst same
    simp [forest.aligned, inside]
  · rw [if_neg same, if_neg (Ne.symm same), sizeOf, Array.getD_eq_getD_getElem?]

/-- Two roots of which the one may be hung below the other: its set is not the larger one. -/
structure Linkable (sets : UnionFind) (small big : Nat) : Prop where
  smallInside : small < sets.count
  bigInside : big < sets.count
  smallRoot : sets.parentOf small = small
  bigRoot : sets.parentOf big = big
  different : small ≠ big
  noLarger : sets.sizeOf small ≤ sets.sizeOf big

section Linking

variable (forest : Forest sets) {small big : Nat} (linkable : sets.Linkable small big)

include forest linkable

/-- Linking two roots keeps a forest. -/
theorem Forest.link : Forest (sets.link small big) := by
  obtain ⟨smallInside, bigInside, _, bigRoot, different, _⟩ := linkable
  have parents := parentOf_link smallInside big
  have sizes := forest.sizeOf_link bigInside small
  refine ⟨?_, ?_, ?_, ?_⟩
  · rw [count_link]
    exact Array.size_setIfInBounds.trans forest.aligned
  · intro element inside
    rw [count_link] at inside ⊢
    rw [parents]
    split
    · exact bigInside
    · exact forest.inRange element inside
  · intro element inside
    rw [count_link] at inside
    have positive := forest.positive element inside
    have positiveBig := forest.positive big bigInside
    rw [sizes]
    split <;> omega
  · intro element inside child
    rw [count_link] at inside
    rw [parents] at child ⊢
    have positiveBig := forest.positive big bigInside
    by_cases below : element = small
    · subst below
      rw [if_pos rfl, sizes, sizes, if_neg different, if_pos rfl]
      omega
    · rw [if_neg below] at child ⊢
      have grows := forest.grows element inside child
      have notBig : element ≠ big := fun same => child (same ▸ bigRoot)
      rw [sizes, sizes, if_neg notBig]
      split
      · rename_i same
        rw [same] at grows
        omega
      · exact grows

/-- Linking two roots makes the one the root of everything below the other. -/
theorem Forest.root_link : ∀ element, (sets.link small big).root element =
    if sets.root element = small then big else sets.root element := by
  have linked := forest.link linkable
  obtain ⟨smallInside, _, smallRoot, bigRoot, different, _⟩ := linkable
  have parents := parentOf_link smallInside big
  refine linked.root_unique (fun root same => ?_) fun element => ?_
  · rw [parents] at same
    split at same
    · rename_i here
      exact absurd (here.symm.trans same.symm) different
    · rename_i other
      rw [root_of_parentOf_eq same, if_neg other]
  · rw [parents]
    split
    · rename_i here
      subst here
      rw [root_of_parentOf_eq bigRoot, if_neg (Ne.symm different), root_of_parentOf_eq smallRoot,
        if_pos rfl]
    · rw [forest.root_parentOf]

end Linking

section Union

variable (forest : Forest sets) {left right : Nat} (leftInside : left < sets.count)
  (rightInside : right < sets.count)

include forest leftInside rightInside

/-- Joining looks both elements up. Then it is done if they have one root, and else hangs the root of
the smaller set below the other one. -/
theorem Forest.union_cases : ∃ looked, Alike sets looked ∧
    (sets.root left = sets.root right ∧ sets.union left right = (false, looked) ∨
      sets.root left ≠ sets.root right ∧ ∃ small big, looked.Linkable small big ∧
        (small = sets.root left ∧ big = sets.root right ∨
          small = sets.root right ∧ big = sets.root left) ∧
        sets.union left right = (true, looked.link small big)) := by
  obtain ⟨leftRoot, found⟩ := forest.find_spec leftInside
  obtain ⟨rightRoot, looked⟩ := found.forest.find_spec (found.count ▸ rightInside)
  refine ⟨_, found.trans looked, ?_⟩
  have alike := found.trans looked
  unfold union
  dsimp only
  rw [leftRoot, rightRoot, found.root]
  generalize ((sets.find left).2.find right).2 = looked at alike
  have inside : ∀ element < sets.count, sets.root element < looked.count :=
    fun element within => alike.count ▸ forest.root_lt within
  have rooted : ∀ element, looked.parentOf (sets.root element) = sets.root element :=
    fun element => alike.root ▸ alike.forest.parentOf_root element
  by_cases same : sets.root left = sets.root right
  · exact .inl ⟨same, if_pos same⟩
  · refine .inr ⟨same, ?_⟩
    rw [if_neg same]
    by_cases smaller : looked.sizeOf (sets.root right) ≤ looked.sizeOf (sets.root left)
    · rw [if_pos smaller]
      exact ⟨_, _, ⟨inside right rightInside, inside left leftInside, rooted right, rooted left,
        Ne.symm same, smaller⟩, .inr ⟨rfl, rfl⟩, rfl⟩
    · rw [if_neg smaller]
      exact ⟨_, _, ⟨inside left leftInside, inside right rightInside, rooted left, rooted right, same,
        Nat.le_of_not_le smaller⟩, .inl ⟨rfl, rfl⟩, rfl⟩

/-- Joining two elements makes equal the roots of their two sets and no others. -/
theorem Forest.union_spec :
    Forest (sets.union left right).2 ∧ (sets.union left right).2.count = sets.count ∧
      ∀ first second, (sets.union left right).2.root first = (sets.union left right).2.root second ↔
        sets.root first = sets.root second ∨
        (sets.root first = sets.root left ∧ sets.root second = sets.root right) ∨
        (sets.root first = sets.root right ∧ sets.root second = sets.root left) := by
  obtain ⟨looked, alike, ⟨same, joined⟩ | ⟨different, small, big, linkable, ends, joined⟩⟩ :=
    forest.union_cases leftInside rightInside
  · rw [joined]
    refine ⟨alike.forest, alike.count, fun first second => ?_⟩
    rw [alike.root, same]
    grind
  · rw [joined]
    have roots := alike.forest.root_link linkable
    refine ⟨alike.forest.link linkable, (count_link ..).trans alike.count, fun first second => ?_⟩
    rw [roots, roots, alike.root]
    rcases ends with ⟨rfl, rfl⟩ | ⟨rfl, rfl⟩ <;> grind

/-- Where roots are those of a generated equivalence, they stay so with one more pair. -/
theorem Forest.union_generates {related : Nat → Nat → Prop}
    (generated : ∀ first second, sets.root first = sets.root second ↔ Relation.EqvGen related first second)
    (first second : Nat) :
    (sets.union left right).2.root first = (sets.union left right).2.root second ↔
      Relation.EqvGen (fun one other => related one other ∨ (one, other) = (left, right)) first second := by
  have roots := (forest.union_spec leftInside rightInside).2.2
  constructor
  · have before : ∀ first second, sets.root first = sets.root second → Relation.EqvGen
        (fun one other => related one other ∨ (one, other) = (left, right)) first second :=
      fun first second same =>
        Relation.EqvGen.mono (fun _ _ => .inl) _ _ ((generated first second).mp same)
    have pair : Relation.EqvGen (fun one other => related one other ∨ (one, other) = (left, right))
        left right := .rel _ _ (.inr rfl)
    intro same
    rcases (roots first second).mp same with same | ⟨onLeft, onRight⟩ | ⟨onRight, onLeft⟩
    · exact before first second same
    · exact (before _ _ onLeft).trans _ _ _ (pair.trans _ _ _ (before _ _ onRight.symm))
    · exact (before _ _ onRight).trans _ _ _ ((pair.symm _ _).trans _ _ _ (before _ _ onLeft.symm))
  · refine eq_of_eqvGen _ fun one other linked => (roots one other).mpr ?_
    rcases linked with earlier | pair
    · exact .inl ((generated one other).mpr (.rel _ _ earlier))
    · cases pair
      exact .inr (.inl ⟨rfl, rfl⟩)

end Union

/-- Joining the pairs of a list generates the least equivalence that has the pairs and those that
generated the sets there were before. -/
theorem Forest.unionAll_spec (forest : Forest sets) {pairs : List (Nat × Nat)}
    (inside : ∀ pair ∈ pairs, pair.1 < sets.count ∧ pair.2 < sets.count) {related : Nat → Nat → Prop}
    (generated : ∀ first second, sets.root first = sets.root second ↔ Relation.EqvGen related first second) :
    (sets.unionAll pairs).count = sets.count ∧
      ∀ first second, (sets.unionAll pairs).root first = (sets.unionAll pairs).root second ↔
        Relation.EqvGen (fun one other => related one other ∨ (one, other) ∈ pairs) first second := by
  induction pairs generalizing sets related with
  | nil => simpa [unionAll] using generated
  | cons pair rest ih =>
    obtain ⟨leftInside, rightInside⟩ := inside pair (List.mem_cons_self ..)
    obtain ⟨joined, count, _⟩ := forest.union_spec leftInside rightInside
    have final := ih joined (fun other later => count ▸ inside other (List.mem_cons_of_mem _ later))
      (forest.union_generates leftInside rightInside generated)
    simp only [count, or_assoc, ← List.mem_cons] at final
    exact final

end Joining

/-- Joining the pairs of a list from scratch generates the least equivalence with the pairs. -/
theorem root_unionAll_singletons_eq_iff {count : Nat} {pairs : List (Nat × Nat)}
    (inside : ∀ pair ∈ pairs, pair.1 < count ∧ pair.2 < count) (first second : Nat) :
    ((singletons count).unionAll pairs).root first = ((singletons count).unionAll pairs).root second ↔
      Relation.EqvGen (fun left right => (left, right) ∈ pairs) first second := by
  have listed : ∀ pair ∈ pairs, pair.1 < (singletons count).count ∧ pair.2 < (singletons count).count := by
    simpa using inside
  have generated := ((forest_singletons count).unionAll_spec listed root_singletons_eq_iff).2
  simpa using generated first second

end ClassModel.UnionFind
