import Mathlib.Logic.Relation
import ClassModel.Analysis.TypeSets
import ClassModel.Proofs.NameSets
import ClassModel.Proofs.Tables

/-! # What a visit gathers

The type set of a node has the scalars of every node without choices that can be reached from it.
A visit that never runs into its own path gathers all of them. One that does still gathers what can
be reached off its path, which is everything when the visit is where the search started. So whatever
is kept is complete, and no answer depends on what was asked before.
-/

namespace ClassModel.ChoiceGraph

/-- A choice of one node for another that is not on a path. -/
def StepOff (graph : ChoiceGraph) (path : List Nat) (source target : Nat) : Prop :=
  target ∈ graph.targets source ∧ target ∉ path

/-- A scalar of a node without choices that can be reached off a path. -/
def ReachesOff (graph : ChoiceGraph) (path : List Nat) (node : Nat) (name : Name) : Prop :=
  ∃ leaf, Relation.ReflTransGen (graph.StepOff path) node leaf ∧ graph.hasChoices leaf = false ∧
    name ∈ graph.base leaf

/-- A scalar of a node without choices that can be reached. -/
abbrev Reaches (graph : ChoiceGraph) (node : Nat) (name : Name) : Prop := graph.ReachesOff [] node name

/-- Whether every set that is kept is that of its node. -/
def Sound (graph : ChoiceGraph) (memo : TypeMemo) : Prop :=
  ∀ node types, memo.get? node = some types → ∀ name, name ∈ types ↔ graph.Reaches node name

variable {graph : ChoiceGraph}

theorem sound_empty : graph.Sound .empty := by
  simp [Sound]

theorem Sound.insert {memo : TypeMemo} (sound : graph.Sound memo) {node : Nat} {types : NameSet}
    (complete : ∀ name, name ∈ types ↔ graph.Reaches node name) : graph.Sound (memo.insert node types) := by
  intro other known found
  rw [Table.get?_insert] at found
  split at found
  · rename_i same
    cases found
    exact same ▸ complete
  · exact sound other known found

section Reaching

theorem ReachesOff.reaches {path : List Nat} {node : Nat} {name : Name}
    (reached : graph.ReachesOff path node name) : graph.Reaches node name := by
  obtain ⟨leaf, way, rest⟩ := reached
  refine ⟨leaf, Relation.ReflTransGen.mono (fun _ _ step => ?_) _ _ way, rest⟩
  exact ⟨step.1, List.not_mem_nil⟩

/-- A node without choices reaches its own scalars only. -/
theorem reachesOff_iff_of_leaf {path : List Nat} {node : Nat} (leaf : graph.hasChoices node = false)
    {name : Name} : graph.ReachesOff path node name ↔ name ∈ graph.base node := by
  have stays : ∀ other, Relation.ReflTransGen (graph.StepOff path) node other → other = node := by
    intro other way
    rcases way.cases_head with same | ⟨next, ⟨step, _⟩, _⟩
    · exact same.symm
    · have none : graph.edges.get? node = none := Table.contains_eq_false_iff.mp leaf
      rw [targets, none] at step
      exact absurd step List.not_mem_nil
  constructor
  · rintro ⟨other, way, _, listed⟩
    exact stays other way ▸ listed
  · exact fun listed => ⟨node, .refl, leaf, listed⟩

/-- A node with choices reaches what the nodes chosen between reach. -/
theorem reaches_iff_of_hasChoices {node : Nat} (choices : graph.hasChoices node = true) {name : Name} :
    graph.Reaches node name ↔ ∃ target ∈ graph.targets node, graph.Reaches target name := by
  constructor
  · rintro ⟨leaf, way, plain, listed⟩
    rcases way.cases_head with rfl | ⟨next, step, rest⟩
    · rw [choices] at plain
      cases plain
    · exact ⟨next, step.1, leaf, rest, plain, listed⟩
  · rintro ⟨target, step, leaf, rest, plain, listed⟩
    exact ⟨leaf, .head ⟨step, List.not_mem_nil⟩ rest, plain, listed⟩

/-- A way off a path goes on from a node for the last time to some node off the longer path. -/
theorem leaves_last {path : List Nat} {node leaf : Nat}
    (way : Relation.ReflTransGen (graph.StepOff path) node leaf) :
    leaf = node ∨ ∃ target ∈ graph.targets node, target ∉ node :: path ∧
      Relation.ReflTransGen (graph.StepOff (node :: path)) target leaf := by
  induction way with
  | refl => exact .inl rfl
  | @tail last next _ step ih =>
    by_cases same : next = node
    · exact .inl same
    · have off : next ∉ node :: path := fun listed =>
        (List.mem_cons.mp listed).elim same step.2
      rcases ih with rfl | ⟨target, chosen, apart, rest⟩
      · exact .inr ⟨next, step.1, off, .refl⟩
      · exact .inr ⟨target, chosen, apart, rest.tail ⟨step.1, off⟩⟩

end Reaching

section Visiting

/-- One step of a visit: what a node chosen between contributes. -/
def visitTarget (graph : ChoiceGraph) (depth : Nat) (path : List Nat) (found : TypeVisit)
    (target : Nat) : TypeVisit :=
  match found.memo.get? target with
  | some known => found.add known
  | none =>
    if target ∈ path then { found with cut := true }
    else if graph.hasChoices target then found.join (graph.visit depth path found.memo target)
    else found.add (graph.base target)

theorem visit_succ (depth : Nat) (path : List Nat) (memo : TypeMemo) (node : Nat) :
    graph.visit (depth + 1) path memo node =
      let found := (graph.targets node).foldl (graph.visitTarget depth (node :: path)) { memo }
      if found.cut && !path.isEmpty then found
      else { found with memo := found.memo.insert node found.types } :=
  rfl

/-- What a visit of a node finds: only scalars that the node reaches, all of them if the visit is not
cut, and those off its path in any case. -/
structure Gathers (graph : ChoiceGraph) (path : List Nat) (node : Nat) (found : TypeVisit) : Prop where
  memo : graph.Sound found.memo
  sound : ∀ name ∈ found.types, graph.Reaches node name
  complete : found.cut = false → ∀ name, graph.Reaches node name → name ∈ found.types
  off : ∀ name, graph.ReachesOff path node name → name ∈ found.types

/-- What a step of a visit adds to it: only scalars that the target reaches, all of them unless the
visit is cut, and those off the path if the target is off it. -/
structure Adds (graph : ChoiceGraph) (path : List Nat) (target : Nat) (found next : TypeVisit) :
    Prop where
  memo : graph.Sound next.memo
  keeps : ∀ name ∈ found.types, name ∈ next.types
  sound : ∀ name ∈ next.types, name ∈ found.types ∨ graph.Reaches target name
  complete : next.cut = false → found.cut = false ∧ ∀ name, graph.Reaches target name → name ∈ next.types
  off : target ∉ path → ∀ name, graph.ReachesOff path target name → name ∈ next.types

/-- A complete set of scalars of the target is all that a step can add. -/
theorem adds_of_complete {path : List Nat} {target : Nat} {found : TypeVisit}
    (sound : graph.Sound found.memo) {types : NameSet}
    (complete : ∀ name, name ∈ types ↔ graph.Reaches target name) :
    graph.Adds path target found (found.add types) := by
  refine ⟨sound, ?_, ?_, ?_, ?_⟩
  · exact fun name present => NameSet.mem_union.mpr (.inl present)
  · exact fun name present => (NameSet.mem_union.mp present).imp id (complete name).mp
  · exact fun whole => ⟨whole, fun name reached => NameSet.mem_union.mpr (.inr ((complete name).mpr reached))⟩
  · exact fun _ name reached => NameSet.mem_union.mpr (.inr ((complete name).mpr reached.reaches))

theorem visitTarget_adds {depth : Nat} {path : List Nat} {found : TypeVisit}
    (sound : graph.Sound found.memo) {target : Nat}
    (visits : target ∉ path → graph.hasChoices target = true →
      graph.Gathers path target (graph.visit depth path found.memo target)) :
    graph.Adds path target found (graph.visitTarget depth path found target) := by
  unfold visitTarget
  split
  · rename_i known remembered
    exact adds_of_complete sound (sound target known remembered)
  · split
    · rename_i onPath
      exact ⟨sound, fun _ present => present, fun _ present => .inl present, by simp,
        fun off => absurd onPath off⟩
    · rename_i offPath
      split
      · rename_i choices
        have gathers := visits offPath choices
        refine ⟨gathers.memo, ?_, ?_, ?_, ?_⟩
        · exact fun name present => NameSet.mem_union.mpr (.inl present)
        · exact fun name present => (NameSet.mem_union.mp present).imp id (gathers.sound name)
        · intro whole
          obtain ⟨early, inner⟩ := Bool.or_eq_false_iff.mp whole
          exact ⟨early, fun name reached => NameSet.mem_union.mpr (.inr (gathers.complete inner name reached))⟩
        · exact fun _ name reached => NameSet.mem_union.mpr (.inr (gathers.off name reached))
      · rename_i plain
        refine adds_of_complete sound fun name => (reachesOff_iff_of_leaf ?_).symm
        exact Bool.eq_false_iff.mpr plain

/-- What the steps of a visit add, one after the other. -/
theorem foldl_visitTarget_adds {depth : Nat} {path : List Nat} {targets : List Nat}
    (visits : ∀ memo, graph.Sound memo → ∀ target ∈ targets, target ∉ path →
      graph.hasChoices target = true → graph.Gathers path target (graph.visit depth path memo target))
    {found : TypeVisit} (sound : graph.Sound found.memo) :
    let next := targets.foldl (graph.visitTarget depth path) found
    graph.Sound next.memo ∧ (∀ name ∈ found.types, name ∈ next.types) ∧
      (∀ name ∈ next.types, name ∈ found.types ∨ ∃ target ∈ targets, graph.Reaches target name) ∧
      (next.cut = false → found.cut = false ∧
        ∀ target ∈ targets, ∀ name, graph.Reaches target name → name ∈ next.types) ∧
      ∀ target ∈ targets, target ∉ path → ∀ name, graph.ReachesOff path target name →
        name ∈ next.types := by
  induction targets generalizing found with
  | nil => simpa using sound
  | cons first rest ih =>
    have adds := visitTarget_adds sound fun off choices =>
      visits _ sound first (List.mem_cons_self ..) off choices
    obtain ⟨memo, keeps, only, complete, off⟩ := ih
      (fun memo sound target later => visits memo sound target (List.mem_cons_of_mem _ later)) adds.memo
    refine ⟨memo, ?_, ?_, ?_, ?_⟩
    · exact fun name present => keeps name (adds.keeps name present)
    · intro name present
      rcases only name present with early | ⟨target, later, reached⟩
      · refine (adds.sound name early).imp id fun reached => ?_
        exact ⟨first, List.mem_cons_self .., reached⟩
      · exact .inr ⟨target, List.mem_cons_of_mem _ later, reached⟩
    · intro whole
      obtain ⟨early, later⟩ := complete whole
      obtain ⟨start, here⟩ := adds.complete early
      refine ⟨start, fun target listed name reached => ?_⟩
      rcases List.mem_cons.mp listed with rfl | listed
      · exact keeps name (here name reached)
      · exact later target listed name reached
    · intro target listed apart name reached
      rcases List.mem_cons.mp listed with rfl | listed
      · exact keeps name (adds.off apart name reached)
      · exact off target listed apart name reached

/-- The steps of a visit of a node with choices gather what the visit should. -/
theorem foldl_visitTarget_gathers {depth : Nat} {path : List Nat} {memo : TypeMemo}
    (sound : graph.Sound memo) {node : Nat} (chooses : graph.hasChoices node = true)
    (visits : ∀ memo, graph.Sound memo → ∀ target ∈ graph.targets node, target ∉ node :: path →
      graph.hasChoices target = true →
      graph.Gathers (node :: path) target (graph.visit depth (node :: path) memo target)) :
    graph.Gathers path node
      ((graph.targets node).foldl (graph.visitTarget depth (node :: path)) { memo }) := by
  have start : graph.Sound ({ memo } : TypeVisit).memo := sound
  obtain ⟨kept, _, only, complete, off⟩ := foldl_visitTarget_adds visits start
  refine ⟨kept, ?_, ?_, ?_⟩
  · intro name present
    rcases only name present with none | reached
    · exact absurd none (NameSet.not_mem_empty name)
    · exact (reaches_iff_of_hasChoices chooses).mpr reached
  · intro whole name reached
    obtain ⟨target, chosen, reached⟩ := (reaches_iff_of_hasChoices chooses).mp reached
    exact (complete whole).2 target chosen name reached
  · rintro name ⟨leaf, way, plain, listed⟩
    rcases leaves_last way with rfl | ⟨target, chosen, apart, rest⟩
    · rw [chooses] at plain
      cases plain
    · exact off target chosen apart name ⟨leaf, rest, plain, listed⟩

/-- What a visit gathers may be kept if it is complete, or if there is no path to stay off. -/
theorem Gathers.keep {path : List Nat} {node : Nat} {found : TypeVisit}
    (gathers : graph.Gathers path node found) (keeps : found.cut = false ∨ path = []) :
    graph.Gathers path node { found with memo := found.memo.insert node found.types } := by
  refine ⟨gathers.memo.insert fun name => ⟨gathers.sound name, fun reached => ?_⟩,
    gathers.sound, gathers.complete, gathers.off⟩
  rcases keeps with whole | rfl
  · exact gathers.complete whole name reached
  · exact gathers.off name reached

/-- A path without repeats to a node with choices has room for it among the nodes with choices. -/
theorem length_lt_size {path : List Nat} {node : Nat}
    (choices : ∀ other ∈ node :: path, graph.hasChoices other = true) (distinct : (node :: path).Nodup) :
    path.length < graph.edges.size := by
  have listed : ∀ other ∈ node :: path, other ∈ graph.edges.keys :=
    fun other present => Table.contains_iff.mp (choices other present)
  have fewer := (List.subperm_of_subset distinct listed).length_le
  have size : graph.edges.keys.length = graph.edges.size := List.length_map _
  rwa [size, List.length_cons] at fewer

/-- A visit gathers what it should, if its depth makes up for the nodes not yet on its path. -/
theorem visit_gathers {depth : Nat} {path : List Nat} {memo : TypeMemo} (sound : graph.Sound memo)
    {node : Nat} (choices : ∀ other ∈ node :: path, graph.hasChoices other = true)
    (distinct : (node :: path).Nodup) (deep : graph.edges.size ≤ depth + path.length) :
    graph.Gathers path node (graph.visit depth path memo node) := by
  induction depth generalizing path memo node with
  | zero =>
    have room := length_lt_size choices distinct
    omega
  | succ depth ih =>
    have gathers := foldl_visitTarget_gathers sound
      (choices node (List.mem_cons_self ..)) fun memo sound target _ apart chooses => by
        refine ih sound ?_ (List.nodup_cons.mpr ⟨apart, distinct⟩) ?_
        · intro other present
          rcases List.mem_cons.mp present with rfl | early
          · exact chooses
          · exact choices other early
        · rw [List.length_cons]
          omega
    rw [visit_succ]
    dsimp only
    split
    · exact gathers
    · rename_i keeps
      refine gathers.keep ?_
      rwa [Bool.and_eq_true, not_and_or, Bool.not_eq_true, Bool.not_eq_true, Bool.not_eq_false',
        List.isEmpty_iff] at keeps

end Visiting

/-- The type set of a node has what the node reaches, whatever was asked before. -/
theorem typeSet_spec {memo : TypeMemo} (sound : graph.Sound memo) (node : Nat) :
    (∀ name, name ∈ (graph.typeSet memo node).1 ↔ graph.Reaches node name) ∧
      graph.Sound (graph.typeSet memo node).2 := by
  unfold typeSet
  split
  · rename_i known remembered
    exact ⟨sound node known remembered, sound⟩
  · split
    · rename_i choices
      have gathers : graph.Gathers [] node (graph.visit graph.edges.size [] memo node) :=
        visit_gathers sound (by simpa using choices) (by simp) (by simp)
      exact ⟨fun name => ⟨gathers.sound name, gathers.off name⟩, gathers.memo⟩
    · rename_i plain
      exact ⟨fun name => (reachesOff_iff_of_leaf (Bool.eq_false_iff.mpr plain)).symm, sound⟩

/-- The type set of a node. -/
def typesOf (graph : ChoiceGraph) (node : Nat) : NameSet := (graph.typeSet .empty node).1

theorem mem_typesOf_iff {node : Nat} {name : Name} :
    name ∈ graph.typesOf node ↔ graph.Reaches node name :=
  (typeSet_spec sound_empty node).1 name

theorem typeSet_fst {memo : TypeMemo} (sound : graph.Sound memo) (node : Nat) :
    (graph.typeSet memo node).1 = graph.typesOf node :=
  NameSet.ext fun name => ((typeSet_spec sound node).1 name).trans mem_typesOf_iff.symm

end ClassModel.ChoiceGraph
