import Mathlib.Data.Finset.Card
import Mathlib.Data.Set.Card
import ClassModel.Proofs.DisjointSets

/-! # Disjoint sets under any calls

Elements are looked up, joined and compared in any order. After every call the sets are those of the
least equivalence with the pairs joined so far, a root knows how many elements its set has, and each
call that joins two sets leaves one set less. Both loops of a look-up end without leaving the range.
-/

namespace ClassModel.UnionFind

section Loops

/-- The loop that climbs from an element to its root, step by step; there is no step out of range. -/
inductive Climbs (sets : UnionFind) : Nat → Nat → Prop
  | stop {element : Nat} (inside : element < sets.count) (fixed : sets.parentOf element = element) :
    Climbs sets element element
  | step {element root : Nat} (inside : element < sets.count) (child : sets.parentOf element ≠ element)
    (rest : Climbs sets (sets.parentOf element) root) : Climbs sets element root

/-- The loop that makes everything from an element up point at a root, step by step; there is no step
out of range. -/
inductive Compresses (root : Nat) : UnionFind → Nat → UnionFind → Prop
  | stop {sets : UnionFind} {element : Nat} (inside : element < sets.count)
    (done : sets.parentOf element = root) : Compresses root sets element sets
  | step {sets next : UnionFind} {element : Nat} (inside : element < sets.count)
    (further : sets.parentOf element ≠ root)
    (rest : Compresses root (sets.redirect element root) (sets.parentOf element) next) :
    Compresses root sets element next

/-- A look-up that ends: it climbs to the root and then compresses the path. -/
structure Finds (sets : UnionFind) (element root : Nat) (next : UnionFind) : Prop where
  climbs : Climbs sets element root
  compresses : Compresses root sets element next

theorem Climbs.unique {sets : UnionFind} {element first second : Nat} (one : Climbs sets element first)
    (other : Climbs sets element second) : first = second := by
  induction one with
  | stop _ fixed =>
    cases other with
    | stop => rfl
    | step _ child _ => exact absurd fixed child
  | step _ child _ ih =>
    cases other with
    | stop _ fixed => exact absurd fixed child
    | step _ _ rest => exact ih rest

theorem Compresses.unique {root element : Nat} {sets first second : UnionFind}
    (one : Compresses root sets element first) (other : Compresses root sets element second) :
    first = second := by
  induction one with
  | stop _ done =>
    cases other with
    | stop => rfl
    | step _ further _ => exact absurd done further
  | step _ further _ ih =>
    cases other with
    | stop _ done => exact absurd done further
    | step _ _ rest => exact ih rest

variable {sets : UnionFind}

theorem Forest.climbs_root (forest : Forest sets) {element : Nat} (inside : element < sets.count) :
    Climbs sets element (sets.root element) := by
  induction element using forest.climb_induction with
  | root element fixed =>
    rw [root_of_parentOf_eq fixed]
    exact .stop inside fixed
  | step element _ child ih =>
    rw [← forest.root_parentOf]
    exact .step inside child (ih (forest.inRange element inside))

@[simp] theorem larger_redirect (element parent : Nat) :
    (sets.redirect element parent).larger = sets.larger := by
  funext other
  rw [larger, larger, count_redirect]
  rfl

/-- With at least as many steps as there are larger elements a compression is the whole loop. -/
theorem Forest.compresses (forest : Forest sets) {steps element root : Nat}
    (inside : element < sets.count) (above : sets.root element = root)
    (enough : (sets.larger element).length ≤ steps) :
    Compresses root sets element (compress root steps element sets) := by
  induction steps generalizing sets element with
  | zero =>
    have fixed : sets.parentOf element = element := by
      by_contra child
      have fewer := forest.larger_parentOf inside child
      omega
    refine .stop inside ?_
    rwa [fixed, ← root_of_parentOf_eq fixed]
  | succ steps ih =>
    simp only [compress]
    split
    · rename_i done
      exact .stop inside done
    · rename_i further
      refine .step inside further ?_
      subst above
      have child := parentOf_ne_of_ne_root further
      have alike := forest.alike_redirect inside child
      have fewer := forest.larger_parentOf inside child
      apply ih alike.forest
      · rw [alike.count]
        exact forest.inRange element inside
      · rw [alike.root, forest.root_parentOf]
      · rw [larger_redirect]
        omega

/-- A look-up in a forest ends, with the root and the compressed forest. -/
theorem Forest.finds_iff (forest : Forest sets) {element : Nat} (inside : element < sets.count)
    {root : Nat} {next : UnionFind} :
    Finds sets element root next ↔ (root, next) = sets.find element := by
  have climbs := forest.climbs_root inside
  have compresses := forest.compresses inside rfl (Nat.le_of_lt (length_larger_lt inside))
  constructor
  · rintro ⟨climbed, compressed⟩
    obtain rfl := climbed.unique climbs
    obtain rfl := compressed.unique compresses
    rfl
  · intro found
    cases found
    exact ⟨climbs, compresses⟩

/-- Every chain of parents ends. -/
theorem Forest.wellFounded (forest : Forest sets) :
    WellFounded fun parent child => sets.parentOf child = parent ∧ parent ≠ child := by
  refine ⟨fun element => ?_⟩
  induction element using forest.climb_induction with
  | root element fixed => exact ⟨_, fun parent above => absurd (above.1.symm.trans fixed) above.2⟩
  | step element _ _ ih => exact ⟨_, fun parent above => above.1 ▸ ih⟩

end Loops

section Counting

variable {sets : UnionFind}

/-- The elements of the set with a root. -/
def membersOf (sets : UnionFind) (root : Nat) : Finset Nat :=
  {element ∈ Finset.range sets.count | sets.root element = root}

/-- The roots of all sets. -/
def rootSet (sets : UnionFind) : Finset Nat :=
  {element ∈ Finset.range sets.count | sets.root element = element}

/-- A forest whose roots know how many elements their sets have. -/
structure Sized (sets : UnionFind) : Prop extends Forest sets where
  exact : ∀ root ∈ sets.rootSet, sets.sizeOf root = (sets.membersOf root).card

theorem mem_membersOf {root element : Nat} :
    element ∈ sets.membersOf root ↔ element < sets.count ∧ sets.root element = root := by
  rw [membersOf, Finset.mem_filter, Finset.mem_range]

theorem mem_rootSet {element : Nat} :
    element ∈ sets.rootSet ↔ element < sets.count ∧ sets.root element = element := by
  rw [rootSet, Finset.mem_filter, Finset.mem_range]

theorem sized_singletons (count : Nat) : Sized (singletons count) := by
  refine ⟨forest_singletons count, fun root known => ?_⟩
  obtain ⟨inside, _⟩ := mem_rootSet.mp known
  have alone : (singletons count).membersOf root = {root} := by
    ext element
    rw [mem_membersOf, root_singletons, Finset.mem_singleton]
    exact ⟨And.right, fun same => ⟨same ▸ inside, same⟩⟩
  rw [count_singletons] at inside
  rw [alone, Finset.card_singleton]
  simp [sizeOf, singletons, inside]

theorem card_rootSet_singletons (count : Nat) : (singletons count).rootSet.card = count := by
  simp [rootSet]

section Alike

variable {other : UnionFind} (alike : Alike sets other)

include alike

theorem Alike.membersOf : other.membersOf = sets.membersOf := by
  funext root
  rw [UnionFind.membersOf, UnionFind.membersOf, alike.count, alike.root]

theorem Alike.rootSet : other.rootSet = sets.rootSet := by
  rw [UnionFind.rootSet, UnionFind.rootSet, alike.count, alike.root]

theorem Sized.of_alike (sized : Sized sets) : Sized other := by
  refine ⟨alike.forest, fun root known => ?_⟩
  rw [alike.sizeOf, alike.membersOf]
  exact sized.exact root (alike.rootSet ▸ known)

end Alike

section Linking

variable {small big : Nat} (linkable : sets.Linkable small big)

include linkable

theorem Linkable.root_small : sets.root small = small := root_of_parentOf_eq linkable.smallRoot

theorem Linkable.root_big : sets.root big = big := root_of_parentOf_eq linkable.bigRoot

/-- A link hands the elements of the one set over to the other. -/
theorem Forest.membersOf_link (forest : Forest sets) :
    (sets.link small big).membersOf big = sets.membersOf big ∪ sets.membersOf small := by
  have roots := forest.root_link linkable
  ext element
  rw [Finset.mem_union, mem_membersOf, mem_membersOf, mem_membersOf, count_link, roots]
  split <;> simp_all

/-- A link leaves all other sets as they are. -/
theorem Forest.membersOf_link_of_ne (forest : Forest sets) {root : Nat} (notSmall : root ≠ small)
    (notBig : root ≠ big) : (sets.link small big).membersOf root = sets.membersOf root := by
  have roots := forest.root_link linkable
  ext element
  rw [mem_membersOf, mem_membersOf, count_link, roots]
  split
  · rename_i below
    simp [below, Ne.symm notSmall, Ne.symm notBig]
  · rfl

/-- A link takes the one root away. -/
theorem Forest.rootSet_link (forest : Forest sets) :
    (sets.link small big).rootSet = sets.rootSet.erase small := by
  have roots := forest.root_link linkable
  ext element
  rw [Finset.mem_erase, mem_rootSet, mem_rootSet, count_link, roots]
  have root := linkable.root_small
  have different := linkable.different
  split
  · rename_i below
    constructor
    · rintro ⟨_, rfl⟩
      exact absurd (below.symm.trans linkable.root_big) different
    · rintro ⟨notSmall, _, fixed⟩
      exact absurd (fixed.symm.trans below) notSmall
  · rename_i elsewhere
    refine ⟨fun known => ⟨?_, known⟩, And.right⟩
    rintro rfl
    exact elsewhere root

theorem Sized.link (sized : Sized sets) : Sized (sets.link small big) := by
  have forest := sized.toForest
  refine ⟨forest.link linkable, fun root known => ?_⟩
  rw [forest.rootSet_link linkable, Finset.mem_erase] at known
  rw [forest.sizeOf_link linkable.bigInside]
  split
  · rename_i same
    subst same
    have apart : Disjoint (sets.membersOf root) (sets.membersOf small) := by
      rw [Finset.disjoint_left]
      intro element here there
      exact linkable.different ((mem_membersOf.mp there).2.symm.trans (mem_membersOf.mp here).2)
    rw [forest.membersOf_link linkable, Finset.card_union_of_disjoint apart, sized.exact root known.2,
      sized.exact small (mem_rootSet.mpr ⟨linkable.smallInside, linkable.root_small⟩)]
  · rename_i notBig
    rw [forest.membersOf_link_of_ne linkable known.1 notBig]
    exact sized.exact root known.2

theorem Forest.card_rootSet_link (forest : Forest sets) :
    (sets.link small big).rootSet.card + 1 = sets.rootSet.card := by
  rw [forest.rootSet_link linkable]
  exact Finset.card_erase_add_one (mem_rootSet.mpr ⟨linkable.smallInside, linkable.root_small⟩)

end Linking

end Counting

section Calling

/-- What can be asked of a partition. -/
inductive Call where
  | find (element : Nat)
  | union (left right : Nat)
  | same (left right : Nat)
  deriving DecidableEq, Repr

/-- Whether a call asks for elements below a bound only. -/
def Call.IsWithin (count : Nat) : Call → Prop
  | .find element => element < count
  | .union left right | .same left right => left < count ∧ right < count

instance (count : Nat) (call : Call) : Decidable (call.IsWithin count) := by
  cases call <;> unfold Call.IsWithin <;> infer_instance

/-- The partition after a call. -/
def call (sets : UnionFind) : Call → UnionFind
  | .find element => (sets.find element).2
  | .union left right => (sets.union left right).2
  | .same left right => (sets.same left right).2

/-- How many sets a call joins to another one. -/
def joined (sets : UnionFind) : Call → Nat
  | .union left right => if (sets.union left right).1 then 1 else 0
  | .find _ | .same _ _ => 0

/-- The partition after some calls. -/
def run (sets : UnionFind) (calls : List Call) : UnionFind := calls.foldl call sets

/-- How many of some calls join two sets. -/
def joinCount : UnionFind → List Call → Nat
  | _, [] => 0
  | sets, next :: rest => sets.joined next + joinCount (sets.call next) rest

/-- The least equivalence with the pairs that some calls join. -/
abbrev United (calls : List Call) : Nat → Nat → Prop :=
  Relation.EqvGen fun left right => Call.union left right ∈ calls

theorem united_nil : United [] = Relation.EqvGen fun _ _ => False := by
  simp only [United, List.not_mem_nil]

theorem united_concat (calls : List Call) (next : Call) : United (calls ++ [next]) =
    Relation.EqvGen fun left right => Call.union left right ∈ calls ∨ Call.union left right = next := by
  simp only [United, List.mem_append, List.mem_singleton]

variable {sets : UnionFind}

/-- Looking two elements up leaves the sets alike, whether they are one. -/
theorem Forest.same_spec (forest : Forest sets) {left right : Nat} (leftInside : left < sets.count)
    (rightInside : right < sets.count) :
    ((sets.same left right).1 = true ↔ sets.root left = sets.root right) ∧
      Alike sets (sets.same left right).2 := by
  obtain ⟨leftRoot, found⟩ := forest.find_spec leftInside
  obtain ⟨rightRoot, looked⟩ := found.forest.find_spec (found.count ▸ rightInside)
  refine ⟨?_, found.trans looked⟩
  unfold same
  dsimp only
  rw [leftRoot, rightRoot, found.root, decide_eq_true_iff]

/-- A call keeps a forest whose roots know the sizes of their sets, and a call that joins two sets leaves
one root less. -/
theorem Sized.call (sized : Sized sets) {next : Call} (inside : next.IsWithin sets.count) :
    Sized (sets.call next) ∧ (sets.call next).count = sets.count ∧
      (sets.call next).rootSet.card + sets.joined next = sets.rootSet.card := by
  have kept : ∀ other, Alike sets other →
      Sized other ∧ other.count = sets.count ∧ other.rootSet.card + 0 = sets.rootSet.card :=
    fun other alike => ⟨sized.of_alike alike, alike.count, by rw [alike.rootSet, Nat.add_zero]⟩
  cases next with
  | find element => exact kept _ (sized.find_spec inside).2
  | same left right => exact kept _ (sized.same_spec inside.1 inside.2).2
  | union left right =>
    obtain ⟨looked, alike, ⟨_, ran⟩ | ⟨_, small, big, linkable, _, ran⟩⟩ :=
      sized.union_cases inside.1 inside.2
    · rw [UnionFind.call, joined, ran, if_neg Bool.false_ne_true]
      exact kept looked alike
    · have fewer := alike.forest.card_rootSet_link linkable
      rw [alike.rootSet] at fewer
      rw [UnionFind.call, joined, ran, if_pos rfl]
      exact ⟨(sized.of_alike alike).link linkable, (count_link ..).trans alike.count, fewer⟩

/-- What a partition is after some calls. -/
structure Reflects (count : Nat) (calls : List Call) (sets : UnionFind) : Prop where
  sized : Sized sets
  size : sets.count = count
  generated : ∀ first second, sets.root first = sets.root second ↔ United calls first second

theorem reflects_singletons (count : Nat) : Reflects count [] (singletons count) := by
  refine ⟨sized_singletons count, count_singletons count, ?_⟩
  rw [united_nil]
  exact root_singletons_eq_iff

/-- One more call joins the pair that it names, if any. -/
theorem Reflects.call {count : Nat} {calls : List Call} (reflects : Reflects count calls sets)
    {next : Call} (inside : next.IsWithin count) : Reflects count (calls ++ [next]) (sets.call next) := by
  obtain ⟨sized, rfl, generated⟩ := reflects
  obtain ⟨after, kept, _⟩ := sized.call inside
  refine ⟨after, kept, fun first second => ?_⟩
  rw [united_concat]
  cases next with
  | find element =>
    rw [UnionFind.call, (sized.find_spec inside).2.root, generated]
    simp only [reduceCtorEq, or_false]
  | same left right =>
    rw [UnionFind.call, (sized.same_spec inside.1 inside.2).2.root, generated]
    simp only [reduceCtorEq, or_false]
  | union left right =>
    rw [UnionFind.call, sized.union_generates inside.1 inside.2 generated]
    simp only [Call.union.injEq, Prod.mk.injEq]

/-- The partition after any calls reflects them. -/
theorem Reflects.run {count : Nat} {before calls : List Call} (reflects : Reflects count before sets)
    (inside : ∀ next ∈ calls, next.IsWithin count) : Reflects count (before ++ calls) (sets.run calls) := by
  induction calls generalizing before sets with
  | nil => simpa [UnionFind.run] using reflects
  | cons next rest ih =>
    obtain ⟨here, later⟩ := List.forall_mem_cons.mp inside
    simpa [UnionFind.run] using ih (reflects.call here) later

/-- With every call that joins two sets there is one set less. -/
theorem Sized.card_rootSet_run (sized : Sized sets) {calls : List Call}
    (inside : ∀ next ∈ calls, next.IsWithin sets.count) :
    (sets.run calls).rootSet.card + sets.joinCount calls = sets.rootSet.card := by
  induction calls generalizing sets with
  | nil => rfl
  | cons next rest ih =>
    obtain ⟨here, later⟩ := List.forall_mem_cons.mp inside
    obtain ⟨after, kept, fewer⟩ := sized.call here
    have ran := ih after (kept ▸ later)
    rw [joinCount, ← fewer, ← ran, UnionFind.run, List.foldl_cons, ← UnionFind.run]
    omega

namespace Reflects

variable {count : Nat} {calls : List Call} (reflects : Reflects count calls sets)

include reflects

/-- An element is united with its root. -/
theorem united_root (element : Nat) : United calls element (sets.root element) :=
  (reflects.generated element _).mp (reflects.sized.root_root element).symm

/-- The elements united with one in range are those of its set. -/
theorem united_eq_membersOf {element : Nat} (inside : element < count) :
    {other | United calls element other} = ↑(sets.membersOf (sets.root element)) := by
  obtain ⟨sized, rfl, generated⟩ := reflects
  ext other
  rw [Set.mem_ofPred_eq, ← generated, Finset.mem_coe, mem_membersOf]
  refine ⟨fun same => ⟨?_, same.symm⟩, fun member => member.2.symm⟩
  -- nothing in range has the root of an element out of range
  by_contra outside
  rw [root_of_parentOf_eq (parentOf_of_le (Nat.le_of_not_lt outside))] at same
  exact outside (same ▸ sized.root_lt inside)

/-- A root knows how many elements are united with it. -/
theorem sizeOf_eq_ncard {root : Nat} (inside : root < count) (fixed : sets.parentOf root = root) :
    sets.sizeOf root = {other | United calls root other}.ncard := by
  have known := root_of_parentOf_eq fixed
  rw [reflects.united_eq_membersOf inside, Set.ncard_coe_finset, known]
  exact reflects.sized.exact root (mem_rootSet.mpr ⟨reflects.size ▸ inside, known⟩)

/-- There are as many sets as roots. -/
theorem ncard_sets : {set | ∃ element < count, set = {other | United calls element other}}.ncard =
    sets.rootSet.card := by
  have image : {set | ∃ element < count, set = {other | United calls element other}} =
      (fun root => {other | United calls root other}) '' ↑sets.rootSet := by
    obtain ⟨sized, rfl, generated⟩ := reflects
    ext set
    constructor
    · rintro ⟨element, inside, rfl⟩
      refine ⟨sets.root element, mem_rootSet.mpr ⟨sized.root_lt inside, sized.root_root element⟩, ?_⟩
      ext other
      simp only [Set.mem_ofPred_eq, ← generated, sized.root_root]
    · rintro ⟨root, known, rfl⟩
      exact ⟨root, (mem_rootSet.mp known).1, rfl⟩
  rw [image, Set.InjOn.ncard_image, Set.ncard_coe_finset]
  intro first firstRoot second secondRoot same
  have united : United calls first second := by
    change {other | United calls first other} = {other | United calls second other} at same
    have itself : second ∈ {other | United calls second other} := .refl second
    rwa [← same] at itself
  rw [← reflects.generated, (mem_rootSet.mp firstRoot).2, (mem_rootSet.mp secondRoot).2] at united
  exact united

end Reflects

/-- Calls with elements in range generate the sets of the pairs that they join: at any time parents are
in range and every chain of them ends, a root keeps the size of its set, both loops of a look-up end
with one element of the set for all of it and change no root, two elements are the same exactly if
they are united, joining them tells whether they were not, and each such join leaves one set less. -/
theorem calls_generate {count : Nat} {calls : List Call} (inside : ∀ next ∈ calls, next.IsWithin count) :
    let sets := (singletons count).run calls
    (sets.parent.size = count ∧ sets.size.size = count) ∧
    (∀ element < count, sets.parentOf element < count) ∧
    (WellFounded fun parent child => sets.parentOf child = parent ∧ parent ≠ child) ∧
    (∀ root < count, sets.parentOf root = root →
      sets.sizeOf root = {other | United calls root other}.ncard) ∧
    (∀ element < count,
      Finds sets element (sets.find element).1 (sets.find element).2 ∧
      United calls element (sets.find element).1 ∧
      (∀ other, United calls element other → (sets.find other).1 = (sets.find element).1) ∧
      (sets.find element).2.root = sets.root) ∧
    (∀ left < count, ∀ right < count,
      ((sets.same left right).1 = true ↔ United calls left right) ∧
      ((sets.union left right).1 = true ↔ ¬United calls left right)) ∧
    {set | ∃ element < count, set = {other | United calls element other}}.ncard +
      (singletons count).joinCount calls = count := by
  intro sets
  have reflects : Reflects count calls sets := (reflects_singletons count).run inside
  have forest := reflects.sized.toForest
  have size := reflects.size
  refine ⟨⟨size, forest.aligned.trans size⟩, ?_, forest.wellFounded,
    fun root => reflects.sizeOf_eq_ncard, fun element within => ?_,
    fun left leftInside right rightInside => ?_, ?_⟩
  · rw [← size]
    exact forest.inRange
  · rw [← size] at within
    refine ⟨(forest.finds_iff within).mpr rfl, reflects.united_root element, fun other united => ?_,
      (forest.find_spec within).2.root⟩
    exact ((reflects.generated element other).mpr united).symm
  · rw [← size] at leftInside rightInside
    rw [← reflects.generated]
    refine ⟨(forest.same_spec leftInside rightInside).1, ?_⟩
    obtain ⟨_, _, ⟨same, ran⟩ | ⟨different, _, _, _, _, ran⟩⟩ := forest.union_cases leftInside rightInside
    · simp [ran, same]
    · simp [ran, different]
  · have fewer := (sized_singletons count).card_rootSet_run (by simpa using inside)
    rw [card_rootSet_singletons] at fewer
    rw [reflects.ncard_sets]
    exact fewer

end Calling

namespace Sample

/-- Of five elements all but one come together by three of four joins. -/
def fiveElements : List Call :=
  [.same 0 1, .union 0 1, .union 3 4, .union 1 0, .same 1 3, .union 1 4, .find 3, .same 2 0]

end Sample

/-- The first and the fourth of five elements are united by a chain of joins, and two sets are left. -/
theorem calls_generate_fiveElements : (∀ next ∈ Sample.fiveElements, next.IsWithin 5) ∧
    United Sample.fiveElements 0 3 ∧ ¬United Sample.fiveElements 2 0 ∧
    {set | ∃ element < 5, set = {other | United Sample.fiveElements element other}}.ncard = 2 := by
  have inside : ∀ next ∈ Sample.fiveElements, next.IsWithin 5 := by decide
  obtain ⟨_, _, _, _, _, answers, sets⟩ := calls_generate inside
  have joins : (singletons 5).joinCount Sample.fiveElements = 3 := by decide +kernel
  rw [joins] at sets
  refine ⟨inside, ?_, ?_, by omega⟩
  · exact (answers 0 (by decide) 3 (by decide)).1.mp (by decide +kernel)
  · exact (answers 2 (by decide) 0 (by decide)).2.mp (by decide +kernel)

end ClassModel.UnionFind
