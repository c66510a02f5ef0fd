import ClassModel.Analysis.Types
import ClassModel.Proofs.TypeClosure

/-! # What types are assigned

A set of equals has a type if something can be reached from it and what the set declares agrees with
that. All sets have types exactly if no slot deviates from its set and each set has one; the order in
which sets are looked at has no part in it.
-/

namespace ClassModel

/-- The type with the given scalars. -/
def AttributeType.ofSet (types : NameSet) : AttributeType :=
  match types.toList with
  | [only] => .scalar only
  | members => .union members

/-- The scalars that a type mentions. -/
def AttributeType.names : AttributeType → List Name
  | .scalar name => [name]
  | .union members => members

@[simp] theorem AttributeType.names_ofSet (types : NameSet) : (ofSet types).names = types.toList := by
  unfold ofSet
  split
  · rename_i only single
    rw [single]
    rfl
  · rfl

theorem AttributeType.ofSet_of_single {types : NameSet} {only : Name} (single : types.toList = [only]) :
    ofSet types = .scalar only := by
  unfold ofSet
  rw [single]

theorem AttributeType.ofSet_of_several {types : NameSet} (several : ∀ only, types.toList ≠ [only]) :
    ofSet types = .union types.toList := by
  unfold ofSet
  split
  · rename_i only single
    exact absurd single (several only)
  · rfl

namespace TypeResolution

/-- Declarations agree with some scalars if a member list that is not empty has just these, and a
scalar is the only one of them or stands beside such a list. -/
structure Agrees (types : NameSet) (scalar : Option Name) (union : Option NameSet) : Prop where
  listed : ∀ members, union = some members → members.isEmpty = false → members = types
  single : ∀ only, types.toList = [only] → ∀ name, scalar = some name → name = only
  several : (∀ only, types.toList ≠ [only]) → ∀ name, scalar = some name →
    ∃ members, union = some members ∧ members.isEmpty = false

/-- The type of some scalars, under the declared scalar as alias if there are several. -/
def ofSet (types : NameSet) (scalar : Option Name) : TypeResolution where
  type := .ofSet types
  aliasName := if types.size = 1 then none else scalar

theorem ofSet_of_single {types : NameSet} {only : Name} (single : types.toList = [only])
    (scalar : Option Name) : ofSet types scalar = ⟨.scalar only, none⟩ := by
  have one : types.size = 1 := by rw [NameSet.size, single]; rfl
  rw [ofSet, AttributeType.ofSet_of_single single, if_pos one]

theorem ofSet_of_several {types : NameSet} (several : ∀ only, types.toList ≠ [only])
    (scalar : Option Name) : ofSet types scalar = ⟨.union types.toList, scalar⟩ := by
  have notOne : types.size ≠ 1 := fun one => (List.length_eq_one_iff.mp one).elim several
  rw [ofSet, AttributeType.ofSet_of_several several, if_neg notOne]

theorem ofSet_type_eq_union {types : NameSet} {scalar : Option Name} {members : List Name}
    (union : (ofSet types scalar).type = .union members) :
    (∀ only, types.toList ≠ [only]) ∧ types.toList = members ∧ (ofSet types scalar).aliasName = scalar := by
  have several : ∀ only, types.toList ≠ [only] := by
    intro only single
    rw [ofSet_of_single single] at union
    cases union
  rw [ofSet_of_several several] at union ⊢
  exact ⟨several, AttributeType.union.inj union, rfl⟩

section Deciding

variable {types : NameSet} {scalar : Option Name} {union : Option NameSet}

theorem any_listed_eq_false_iff : (union.filter (!·.isEmpty)).any (· ≠ types) = false ↔
    ∀ members, union = some members → members.isEmpty = false → members = types := by
  cases union with
  | none => simp
  | some members => cases empty : members.isEmpty <;> simp [empty]

theorem isNone_listed_eq_false_iff : (union.filter (!·.isEmpty)).isNone = false ↔
    ∃ members, union = some members ∧ members.isEmpty = false := by
  cases union with
  | none => simp
  | some members => cases empty : members.isEmpty <;> simp [empty]

/-- Beside a single type nothing else may be declared. -/
theorem agrees_iff_of_single
    (listed : ∀ members, union = some members → members.isEmpty = false → members = types)
    {only : Name} (single : types.toList = [only]) :
    Agrees types scalar union ↔ scalar.any (· ≠ only) = false := by
  rw [Option.any_eq_false]
  simp only [ne_eq, decide_not, Bool.not_eq_eq_eq_not, Bool.not_false, decide_eq_true_eq]
  refine ⟨fun agrees name given => agrees.single only single name given, fun equal => ?_⟩
  refine ⟨listed, fun other one name given => ?_, fun several => absurd single (several only)⟩
  rw [single] at one
  cases one
  exact equal name given

/-- Beside several types a scalar may be declared as their alias, if they are listed. -/
theorem agrees_iff_of_several
    (listed : ∀ members, union = some members → members.isEmpty = false → members = types)
    (several : ∀ only, types.toList ≠ [only]) :
    Agrees types scalar union ↔ (scalar.isSome && (union.filter (!·.isEmpty)).isNone) = false := by
  constructor
  · intro agrees
    cases scalar with
    | none => rfl
    | some name =>
      rw [isNone_listed_eq_false_iff.mpr (agrees.several several name rfl)]
      rfl
  · intro stands
    refine ⟨listed, fun only one => absurd one (several only), ?_⟩
    rintro _ name rfl
    exact isNone_listed_eq_false_iff.mp stands

/-- A type is given exactly if the declarations agree with it. -/
theorem decide?_eq_some_iff {resolution : TypeResolution} :
    decide? types scalar union = some resolution ↔
      Agrees types scalar union ∧ resolution = ofSet types scalar := by
  unfold decide?
  dsimp only
  split
  · rename_i differs
    refine ⟨nofun, fun ⟨agrees, _⟩ => ?_⟩
    rw [any_listed_eq_false_iff.mpr agrees.listed] at differs
    cases differs
  · rename_i same
    have listed := any_listed_eq_false_iff.mp (Bool.eq_false_iff.mpr same)
    split
    · rename_i only single
      rw [ofSet_of_single single, agrees_iff_of_single listed single]
      cases scalar.any (· ≠ only) <;> simp [eq_comm]
    · rename_i several
      rw [ofSet_of_several several, agrees_iff_of_several listed several]
      cases (scalar.isSome && (union.filter (!·.isEmpty)).isNone) <;> simp [eq_comm]

end Deciding

end TypeResolution

namespace TypeAssignment

/-- The type of a set. -/
def resolution? (space : TypeSpace) (graph : ChoiceGraph) (root : Nat) : Option TypeResolution :=
  if (graph.typesOf root).isEmpty then none
  else TypeResolution.decide? (graph.typesOf root) (space.scalarOf? root) (space.unionOf? root)

/-- What is known of the sets looked at: the types of those that reach something, and which ones do
not. -/
structure Tracks (space : TypeSpace) (graph : ChoiceGraph) (done : List Nat) (known : TypeAssignment) :
    Prop where
  memo : graph.Sound known.memo
  resolved : ∀ root, known.resolved.get? root = if root ∈ done then resolution? space graph root else none
  untyped : ∀ root, root ∈ known.untyped ↔ root ∈ done ∧ (graph.typesOf root).isEmpty = true
  typed : ∀ root ∈ done, (graph.typesOf root).isEmpty = false →
    (resolution? space graph root).isSome = true

variable {space : TypeSpace} {graph : ChoiceGraph}

theorem tracks_start : Tracks space graph [] {} :=
  ⟨ChoiceGraph.sound_empty, by simp, by simp, by simp⟩

/-- A set that was looked at need not be looked at again. -/
theorem Tracks.again {done : List Nat} {known : TypeAssignment} (tracks : Tracks space graph done known)
    {root : Nat} (looked : root ∈ done) : Tracks space graph (done ++ [root]) known := by
  have same : ∀ other, other ∈ done ++ [root] ↔ other ∈ done := by
    intro other
    rw [List.mem_append, List.mem_singleton]
    exact ⟨fun present => present.elim id fun same => same ▸ looked, .inl⟩
  refine ⟨tracks.memo, ?_, ?_, ?_⟩
  · simpa only [same] using tracks.resolved
  · simpa only [same] using tracks.untyped
  · simpa only [same] using tracks.typed

/-- Sets that were looked at are those that are known. -/
theorem Tracks.mem_done_iff {done : List Nat} {known : TypeAssignment}
    (tracks : Tracks space graph done known) {root : Nat} :
    (known.resolved.contains root || known.untyped.contains root) = true ↔ root ∈ done := by
  rw [Bool.or_eq_true, Table.contains, tracks.resolved, List.contains_iff_mem, tracks.untyped]
  constructor
  · rintro (resolved | ⟨looked, _⟩)
    · by_contra missing
      simp [missing] at resolved
    · exact looked
  · intro looked
    cases empty : (graph.typesOf root).isEmpty with
    | true => exact .inr ⟨looked, rfl⟩
    | false => exact .inl (by simpa [looked] using tracks.typed root looked empty)

section Looking

variable {done : List Nat} {known : TypeAssignment} (tracks : Tracks space graph done known)
  {root : Nat} (fresh : root ∉ done) {memo : TypeMemo} (sound : graph.Sound memo)

include tracks fresh sound

/-- A set that reaches nothing is noted as untyped. -/
theorem Tracks.leave (empty : (graph.typesOf root).isEmpty = true) :
    Tracks space graph (done ++ [root]) { known with memo, untyped := known.untyped ++ [root] } := by
  have none : resolution? space graph root = none := by simp [resolution?, empty]
  refine ⟨sound, fun other => ?_, fun other => ?_, fun other looked typed => ?_⟩
  · rw [tracks.resolved]
    by_cases same : other = root
    · simp [same, fresh, none]
    · simp [same]
  · rw [List.mem_append, tracks.untyped]
    by_cases same : other = root
    · simp [same, empty]
    · simp [same]
  · rcases List.mem_append.mp looked with looked | here
    · exact tracks.typed other looked typed
    · rw [List.mem_singleton.mp here, empty] at typed
      cases typed

/-- A set that reaches something is noted with its type. -/
theorem Tracks.insert (inhabited : (graph.typesOf root).isEmpty = false) {resolution : TypeResolution}
    (typed : resolution? space graph root = some resolution) :
    Tracks space graph (done ++ [root])
      { known with memo, resolved := known.resolved.insert root resolution } := by
  refine ⟨sound, fun other => ?_, fun other => ?_, fun other looked whole => ?_⟩
  · rw [Table.get?_insert, tracks.resolved]
    by_cases same : root = other
    · simp [← same, typed]
    · simp [same, Ne.symm same]
  · rw [tracks.untyped, List.mem_append]
    by_cases same : other = root
    · simp [same, fresh, inhabited]
    · simp [same]
  · rcases List.mem_append.mp looked with looked | here
    · exact tracks.typed other looked whole
    · rw [List.mem_singleton.mp here, typed]
      rfl

end Looking

/-- A look at a set succeeds if the set reaches nothing or has a type, and is known from then on. -/
theorem Tracks.resolve {done : List Nat} {known : TypeAssignment}
    (tracks : Tracks space graph done known) (root : Nat) :
    ((∃ next, resolve space graph known root = .ok next) ↔
        ((graph.typesOf root).isEmpty = false → (resolution? space graph root).isSome = true)) ∧
      ∀ next, resolve space graph known root = .ok next → Tracks space graph (done ++ [root]) next := by
  unfold TypeAssignment.resolve
  split
  · rename_i looked
    have looked := tracks.mem_done_iff.mp looked
    refine ⟨⟨fun _ => tracks.typed root looked, fun _ => ⟨known, rfl⟩⟩, ?_⟩
    rintro _ ⟨⟩
    exact tracks.again looked
  · rename_i unseen
    have fresh : root ∉ done := fun looked => unseen (tracks.mem_done_iff.mpr looked)
    have sound := (graph.typeSet_spec tracks.memo root).2
    have types := ChoiceGraph.typeSet_fst tracks.memo root
    generalize graph.typeSet known.memo root = answer at sound types
    obtain ⟨_, memo⟩ := answer
    dsimp only at sound types
    subst types
    dsimp only
    cases empty : (graph.typesOf root).isEmpty with
    | true =>
      refine ⟨by simp, ?_⟩
      rintro _ ⟨⟩
      exact tracks.leave fresh sound empty
    | false =>
      have decided : resolution? space graph root = TypeResolution.decide? (graph.typesOf root)
          (space.scalarOf? root) (space.unionOf? root) := by simp [resolution?, empty]
      rw [← decided]
      cases typed : resolution? space graph root with
      | none => simp
      | some resolution =>
        refine ⟨by simp, ?_⟩
        rintro _ ⟨⟩
        exact tracks.insert fresh sound empty typed

theorem ofSpace_eq_ok_iff {choiceLinks : List AttributeLink} {resolved : Table Nat TypeResolution}
    (same : graph = ⟨space.choiceEdges choiceLinks, space.declaredTypes⟩) :
    ofSpace space choiceLinks = .ok resolved ↔ space.conflictingRoot? = none ∧
      ∃ found, space.roots.foldlM (TypeAssignment.resolve space graph) {} = .ok found ∧
        (∀ member ∈ space.members, member.2 ∉ found.untyped) ∧ found.resolved = resolved := by
  have whole : ∀ found : TypeAssignment, space.members.filter (found.untyped.contains ·.2) = [] ↔
      ∀ member ∈ space.members, member.2 ∉ found.untyped := by
    intro found
    simp only [List.filter_eq_nil_iff, List.contains_iff_mem]
  subst same
  unfold ofSpace
  split
  · rename_i conflicting
    simp [conflicting]
  · rename_i consistent
    simp only [consistent, true_and, bind_eq_ok_iff]
    refine exists_congr fun found => and_congr_right fun _ => ?_
    rw [← whole]
    split
    · rename_i typed
      rw [Except.ok.injEq]
      exact (and_iff_right typed).symm
    · rename_i lacking
      simp only [reduceCtorEq, false_iff, not_and]
      exact fun typed => absurd typed lacking

/-- Every set is typed exactly if no slot deviates from its set and each set has a type. -/
theorem ofSpace_spec {choiceLinks : List AttributeLink}
    (owned : ∀ root ∈ space.roots, ∃ slot, (slot, root) ∈ space.members)
    (same : graph = ⟨space.choiceEdges choiceLinks, space.declaredTypes⟩) :
    ((∃ resolved, ofSpace space choiceLinks = .ok resolved) ↔
        space.conflictingRoot? = none ∧
          ∀ root ∈ space.roots, (resolution? space graph root).isSome = true) ∧
      ∀ resolved, ofSpace space choiceLinks = .ok resolved → ∀ root ∈ space.roots,
        resolved.get? root = resolution? space graph root := by
  have tracked : ∀ found, space.roots.foldlM (TypeAssignment.resolve space graph) {} = .ok found →
      Tracks space graph space.roots found := by
    intro found ran
    exact foldlM_tracks (Tracks space graph) ran tracks_start
      fun done root state next tracks => (tracks.resolve root).2 next
  have runs := exists_foldlM_eq_ok_iff space.roots (Tracks space graph)
    (fun _ root => (graph.typesOf root).isEmpty = false → (resolution? space graph root).isSome = true)
    tracks_start (fun done root state tracks => (tracks.resolve root).1)
    fun done root state next tracks => (tracks.resolve root).2 next
  simp only [ofSpace_eq_ok_iff same]
  constructor
  · constructor
    · rintro ⟨_, consistent, found, ran, typed, _⟩
      refine ⟨consistent, fun root listed => ?_⟩
      obtain ⟨slot, present⟩ := owned root listed
      have known := typed _ present
      rw [(tracked found ran).untyped, not_and, Bool.not_eq_true] at known
      exact (tracked found ran).typed root listed (known listed)
    · rintro ⟨consistent, typed⟩
      obtain ⟨found, ran⟩ := runs.mpr fun before root after listed _ => typed root (by simp [listed])
      refine ⟨_, consistent, found, ran, ?_, rfl⟩
      rintro ⟨slot, root⟩ _ empty
      obtain ⟨listed, empty⟩ := ((tracked found ran).untyped root).mp empty
      have known := typed root listed
      simp [resolution?, empty] at known
  · rintro _ ⟨_, found, ran, _, rfl⟩ root listed
    rw [(tracked found ran).resolved, if_pos listed]

end TypeAssignment

end ClassModel
