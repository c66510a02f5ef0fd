import Mathlib.Logic.Function.Iterate
import ClassModel.Proofs.TypeClosure

/-! # Searching in steps

The search for a type set, one look at a choice at a time. The nodes whose choices are being followed are
stacked in frames, each with what its choices gave so far; a frame that is done hands that on to the one
below it. This is the visit of a node with its path made explicit: every search ends, with the answer and
the memo of the visit. Whatever it keeps on the way is the complete set of its node, also what it keeps
between two queries, and it never runs out of frames without an answer.
-/

namespace ClassModel

/-- A node whose choices are being followed: how many of them are done, and what they gave. -/
structure TypeFrame where
  node : Nat
  next : Nat := 0
  types : NameSet := ∅
  /-- Whether a choice led back to a node in progress. -/
  cut : Bool := false

namespace TypeFrame

/-- The frame with further scalars. -/
def add (frame : TypeFrame) (types : NameSet) : TypeFrame :=
  { frame with types := frame.types.union types }

/-- The frame after the one above it is done. -/
def join (frame inner : TypeFrame) : TypeFrame :=
  { frame with types := frame.types.union inner.types, cut := frame.cut || inner.cut }

end TypeFrame

/-- A search under way, the innermost frame first. -/
structure TypeSearch where
  memo : TypeMemo
  /-- The nodes whose choices are being followed. -/
  inProgress : List Nat
  stack : List TypeFrame

/-- How far the search for a type set is. -/
inductive SearchState where
  | going (search : TypeSearch)
  | answered (types : NameSet) (memo : TypeMemo)
  /-- The frames ran out without an answer. -/
  | emptied (memo : TypeMemo)

def SearchState.memo : SearchState → TypeMemo
  | .going search => search.memo
  | .answered _ memo => memo
  | .emptied memo => memo

namespace ChoiceGraph

/-- Looks at the next choice of the innermost frame, or closes it if there is none. -/
def look (graph : ChoiceGraph) (search : TypeSearch) : SearchState :=
  match search.stack with
  | [] => .emptied search.memo
  | frame :: below =>
    match (graph.targets frame.node)[frame.next]? with
    | some target =>
      let frame := { frame with next := frame.next + 1 }
      match search.memo.get? target with
      | some known => .going { search with stack := frame.add known :: below }
      | none =>
        if target ∈ search.inProgress then
          .going { search with stack := { frame with cut := true } :: below }
        else if graph.hasChoices target then
          .going { search with
            inProgress := target :: search.inProgress
            stack := { node := target } :: frame :: below }
        else .going { search with stack := frame.add (graph.base target) :: below }
    | none =>
      match below with
      | parent :: rest =>
        .going {
          memo := if frame.cut then search.memo else search.memo.insert frame.node frame.types
          inProgress := search.inProgress.erase frame.node
          stack := parent.join frame :: rest }
      | [] => .answered frame.types (search.memo.insert frame.node frame.types)

/-- The state after one more step, if the search goes on. -/
def advance (graph : ChoiceGraph) : SearchState → SearchState
  | .going search => graph.look search
  | .answered types memo => .answered types memo
  | .emptied memo => .emptied memo

/-- The state in which the search for the type set of a node starts. -/
def ask (graph : ChoiceGraph) (memo : TypeMemo) (node : Nat) : SearchState :=
  match memo.get? node with
  | some known => .answered known memo
  | none =>
    if graph.hasChoices node then .going { memo, inProgress := [node], stack := [{ node }] }
    else .answered (graph.base node) memo

/-- The memos that a sequence of queries leaves behind. -/
inductive Asked (graph : ChoiceGraph) : TypeMemo → Prop where
  | nothing : graph.Asked .empty
  | next {memo later : TypeMemo} {node count : Nat} {types : NameSet} (before : graph.Asked memo)
      (answered : graph.advance^[count] (graph.ask memo node) = .answered types later) :
      graph.Asked later

/-- What holds of every state of a search: whatever is kept is complete, and there are frames left. -/
structure IsRight (graph : ChoiceGraph) (state : SearchState) : Prop where
  memo : graph.Sound state.memo
  filled : ∀ left, state ≠ .emptied left

theorem isRight_going {graph : ChoiceGraph} {search : TypeSearch} (sound : graph.Sound search.memo) :
    graph.IsRight (.going search) :=
  ⟨sound, fun _ => SearchState.noConfusion⟩

theorem isRight_answered {graph : ChoiceGraph} {types : NameSet} {memo : TypeMemo} (sound : graph.Sound memo) :
    graph.IsRight (.answered types memo) :=
  ⟨sound, fun _ => SearchState.noConfusion⟩

/-- Whether steps lead from one state to another, by right states only. -/
abbrev Follows (graph : ChoiceGraph) : SearchState → SearchState → Prop :=
  Relation.ReflTransGen fun state next => graph.advance state = next ∧ graph.IsRight next

variable {graph : ChoiceGraph}

section Following

variable {state final : SearchState} (follows : graph.Follows state final)

include follows

theorem Follows.exists_iterate : ∃ count, graph.advance^[count] state = final := by
  induction follows using Relation.ReflTransGen.head_induction_on with
  | refl => exact ⟨0, rfl⟩
  | head step _ ih =>
    obtain ⟨count, reached⟩ := ih
    refine ⟨count + 1, ?_⟩
    rw [Function.iterate_succ_apply, step.1, reached]

/-- A search that comes to an end by right states has no other ones. -/
theorem Follows.isRight_iterate (right : graph.IsRight state) (ends : graph.advance final = final)
    (count : Nat) : graph.IsRight (graph.advance^[count] state) := by
  induction follows using Relation.ReflTransGen.head_induction_on generalizing count with
  | refl => rwa [Function.iterate_fixed ends]
  | head step _ ih =>
    cases count with
    | zero => exact right
    | succ count =>
      rw [Function.iterate_succ_apply, step.1]
      exact ih step.2 count

end Following

/-- The state of a search whose innermost frame has found so much, with the frames below it. -/
def holding (found : TypeVisit) (node next : Nat) (below : List TypeFrame) : SearchState :=
  .going {
    memo := found.memo
    inProgress := node :: below.map (·.node)
    stack := ⟨node, next, found.types, found.cut⟩ :: below }

/-- What a visit of a node chosen between comes to: it gathers what it should, and a frame for the node on
top of one that is at the choice is followed back to the latter, with what the visit gathered. -/
structure Visits (graph : ChoiceGraph) (depth : Nat) (node : Nat) (below : List TypeFrame)
    (memo : TypeMemo) (target : Nat) : Prop where
  gathers : graph.Gathers (node :: below.map (·.node)) target
    (graph.visit depth (node :: below.map (·.node)) memo target)
  returns : ∀ parent : TypeFrame, parent.node = node →
    graph.Follows (holding { memo } target 0 (parent :: below))
      (holding (.join ⟨memo, parent.types, parent.cut⟩
        (graph.visit depth (node :: below.map (·.node)) memo target)) node parent.next below)

section Looking

variable {depth node : Nat} {found : TypeVisit} {below : List TypeFrame}

/-- One step that comes to a frame and keeps the memo sound. -/
theorem follows_holding {state : SearchState} {found : TypeVisit} {next : Nat}
    (step : graph.advance state = holding found node next below) (sound : graph.Sound found.memo) :
    graph.Follows state (holding found node next below) :=
  .single ⟨step, isRight_going sound⟩

/-- A look at a choice comes to what the choice contributes to the visit. -/
theorem follows_target (sound : graph.Sound found.memo) {next target : Nat}
    (chosen : (graph.targets node)[next]? = some target)
    (visits : target ∉ node :: below.map (·.node) → graph.hasChoices target = true →
      graph.Visits depth node below found.memo target) :
    graph.Follows (holding found node next below)
      (holding (graph.visitTarget depth (node :: below.map (·.node)) found target) node (next + 1)
        below) := by
  unfold visitTarget
  split
  · rename_i known remembered
    refine follows_holding ?_ sound
    simp only [advance, holding, look, chosen, remembered, TypeFrame.add, TypeVisit.add]
  · rename_i unknown
    split
    · rename_i onPath
      refine follows_holding ?_ sound
      simp only [advance, holding, look, chosen, unknown, if_pos onPath]
    · rename_i offPath
      split
      · rename_i choices
        have opens : graph.advance (holding found node next below) =
            holding { memo := found.memo } target 0 (⟨node, next + 1, found.types, found.cut⟩ :: below) := by
          simp only [advance, holding, look, chosen, unknown, if_neg offPath, if_pos choices, List.map_cons]
        exact (follows_holding opens sound).trans ((visits offPath choices).returns _ rfl)
      · rename_i plain
        refine follows_holding ?_ sound
        simp only [advance, holding, look, chosen, unknown, if_neg offPath, if_neg plain, TypeFrame.add,
          TypeVisit.add]

/-- Looks at all choices of a node come to what they contribute to its visit. -/
theorem follows_targets (depth : Nat) (below : List TypeFrame) (sound : graph.Sound found.memo)
    {done rest : List Nat} (targets : graph.targets node = done ++ rest)
    (visits : ∀ memo, graph.Sound memo → ∀ target ∈ rest, target ∉ node :: below.map (·.node) →
      graph.hasChoices target = true → graph.Visits depth node below memo target) :
    graph.Follows (holding found node done.length below)
      (holding (rest.foldl (graph.visitTarget depth (node :: below.map (·.node))) found) node
        (graph.targets node).length below) := by
  induction rest generalizing found done with
  | nil =>
    rw [targets, List.append_nil]
    exact .refl
  | cons target rest ih =>
    have chosen : (graph.targets node)[done.length]? = some target := by simp [targets]
    have here := visits found.memo sound target (List.mem_cons_self ..)
    have adds := visitTarget_adds sound fun off choices => (here off choices).gathers
    have split : graph.targets node = (done ++ [target]) ++ rest := by simp [targets]
    have onward := ih adds.memo split
      fun memo sound other later => visits memo sound other (List.mem_cons_of_mem _ later)
    rw [List.length_append] at onward
    exact (follows_target sound chosen here).trans onward

/-- A frame that is done hands on what it found to the one below it, and keeps it unless it was cut. -/
theorem advance_of_parent {parent : TypeFrame} :
    graph.advance (holding found node (graph.targets node).length (parent :: below)) =
      holding (.join ⟨found.memo, parent.types, parent.cut⟩
        (if found.cut then found else { found with memo := found.memo.insert node found.types }))
        parent.node parent.next below := by
  have done : (graph.targets node)[(graph.targets node).length]? = none := List.getElem?_length _
  simp only [advance, holding, look, done]
  cases cut : found.cut <;> simp [TypeFrame.join, TypeVisit.join, cut]

/-- The innermost frame answers if there is none below it. -/
theorem advance_of_last :
    graph.advance (holding found node (graph.targets node).length []) =
      .answered found.types (found.memo.insert node found.types) := by
  have done : (graph.targets node)[(graph.targets node).length]? = none := List.getElem?_length _
  simp only [advance, holding, look, done]

/-- The search follows every visit of a node with choices off the path, from its frame to the return to the
one below. The depth that the visit has left makes up for the nodes that are not on the path. -/
theorem visits_target {memo : TypeMemo} (sound : graph.Sound memo) {target : Nat}
    (choices : ∀ other ∈ target :: node :: below.map (·.node), graph.hasChoices other = true)
    (distinct : (target :: node :: below.map (·.node)).Nodup)
    (deep : graph.edges.size ≤ depth + (node :: below.map (·.node)).length) :
    graph.Visits depth node below memo target := by
  induction depth generalizing memo node target below with
  | zero =>
    -- all nodes with choices are on the path already
    have room := length_lt_size choices distinct
    omega
  | succ depth ih =>
    have gathers := visit_gathers sound choices distinct deep
    refine ⟨gathers, ?_⟩
    rintro parent rfl
    have start : graph.Sound ({ memo } : TypeVisit).memo := sound
    have deeper : graph.edges.size ≤ depth + (target :: parent.node :: below.map (·.node)).length := by
      rw [List.length_cons]
      omega
    have looks := follows_targets depth (parent :: below) start (List.nil_append _).symm
      fun memo sound inner _ apart chooses =>
        ih sound (List.forall_mem_cons.mpr ⟨chooses, choices⟩) (List.nodup_cons.mpr ⟨apart, distinct⟩) deeper
    -- the frame is done, and the visit keeps what it found just as the frame does
    refine looks.trans (follows_holding ?_ gathers.memo)
    rw [advance_of_parent]
    simp only [visit_succ, List.map_cons, List.isEmpty_cons, Bool.not_false, Bool.and_true]
    rfl

end Looking

/-- A query takes right steps only, and they come to the answer and the memo of the visit. -/
theorem follows_ask {memo : TypeMemo} (sound : graph.Sound memo) (node : Nat) :
    graph.Follows (graph.ask memo node)
      (.answered (graph.typeSet memo node).1 (graph.typeSet memo node).2) := by
  cases remembered : memo.get? node with
  | some known =>
    simp only [ask, typeSet, remembered]
    exact .refl
  | none =>
    by_cases choices : graph.hasChoices node = true
    · have distinct : [node].Nodup := List.nodup_singleton node
      have chooses : ∀ other ∈ [node], graph.hasChoices other = true := by simpa using choices
      -- the node itself is one of those with choices, so a visit goes at least one level deep
      obtain ⟨depth, size⟩ := Nat.exists_eq_succ_of_ne_zero (length_lt_size chooses distinct).ne'
      have deep : graph.edges.size ≤ depth + [node].length := size.le
      have start : graph.Sound ({ memo } : TypeVisit).memo := sound
      have looks := follows_targets depth [] start (List.nil_append _).symm
        fun memo sound inner _ apart chosen =>
          visits_target sound (List.forall_mem_cons.mpr ⟨chosen, chooses⟩)
            (List.nodup_cons.mpr ⟨apart, distinct⟩) deep
      have closes : graph.advance (holding ((graph.targets node).foldl (graph.visitTarget depth [node])
          { memo }) node (graph.targets node).length []) =
            .answered (graph.typeSet memo node).1 (graph.typeSet memo node).2 := by
        rw [advance_of_last]
        simp only [typeSet, remembered, if_pos choices, size, visit_succ, List.isEmpty_nil, Bool.not_true,
          Bool.and_false, if_neg Bool.false_ne_true]
      have sound : graph.Sound (graph.typeSet memo node).2 := (typeSet_spec sound node).2
      simp only [ask, remembered, if_pos choices]
      exact looks.tail ⟨closes, isRight_answered sound⟩
    · simp only [ask, typeSet, remembered, if_neg choices]
      exact .refl

theorem isRight_ask {memo : TypeMemo} (sound : graph.Sound memo) (node : Nat) :
    graph.IsRight (graph.ask memo node) := by
  unfold ask
  split
  · exact isRight_answered sound
  · split
    · exact isRight_going sound
    · exact isRight_answered sound

/-- However many steps a query has taken, what is kept is complete. -/
theorem isRight_iterate_ask {memo : TypeMemo} (sound : graph.Sound memo) (node count : Nat) :
    graph.IsRight (graph.advance^[count] (graph.ask memo node)) :=
  (follows_ask sound node).isRight_iterate (isRight_ask sound node) rfl count

/-- What queries leave behind is complete. -/
theorem Asked.sound {memo : TypeMemo} (asked : graph.Asked memo) : graph.Sound memo := by
  induction asked with
  | nothing => exact sound_empty
  | @next memo later node count types _ answered ih =>
    have right := isRight_iterate_ask ih node count
    rw [answered] at right
    exact right.memo

/-- A query for a type set, after any others: it takes finitely many steps to exactly the scalars that the
node reaches, whatever was asked before, and this answer and memo are those of the visit. In every state it
comes through, every set that is kept is complete and there is a frame to look at. -/
theorem ask_answered {memo : TypeMemo} (asked : graph.Asked memo) (node : Nat) :
    (∃ count types later, graph.advance^[count] (graph.ask memo node) = .answered types later ∧
        graph.typeSet memo node = (types, later) ∧ ∀ name, name ∈ types ↔ graph.Reaches node name) ∧
      ∀ count, graph.Sound (graph.advance^[count] (graph.ask memo node)).memo ∧
        ∀ left, graph.advance^[count] (graph.ask memo node) ≠ .emptied left := by
  constructor
  · obtain ⟨count, answered⟩ := (follows_ask asked.sound node).exists_iterate
    exact ⟨count, _, _, answered, rfl, (typeSet_spec asked.sound node).1⟩
  · intro count
    have right := isRight_iterate_ask asked.sound node count
    exact ⟨right.memo, right.filled⟩

/-- Two nodes that each choose the other, one of them also a node with a scalar. -/
def looped : ChoiceGraph where
  edges := (Table.empty.insert 0 [1, 2]).insert 1 [0]
  base := fun node => if node = 2 then NameSet.ofList ["Text"] else ∅

/-- The search from the node that also chooses the scalar keeps the set of that node only, the one from the
other node then finds it there. -/
theorem ask_answered_looped :
    ∃ memo, looped.Asked memo ∧ memo.get? 0 = some (.ofList ["Text"]) ∧ memo.get? 1 = none ∧
      (∃ count types later, looped.advance^[count] (looped.ask memo 1) = .answered types later ∧
          looped.typeSet memo 1 = (types, later) ∧ ∀ name, name ∈ types ↔ looped.Reaches 1 name) ∧
        ∀ count, looped.Sound (looped.advance^[count] (looped.ask memo 1)).memo ∧
          ∀ left, looped.advance^[count] (looped.ask memo 1) ≠ .emptied left := by
  have asked : looped.Asked (looped.typeSet .empty 0).2 :=
    @Asked.next looped .empty _ 0 5 (looped.typeSet .empty 0).1 .nothing rfl
  exact ⟨_, asked, rfl, rfl, ask_answered asked 1⟩

end ChoiceGraph

end ClassModel
