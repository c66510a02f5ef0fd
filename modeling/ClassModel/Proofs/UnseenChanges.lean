import ClassModel.Analysis
import ClassModel.Proofs.Ordinals

/-! # Changes that no match sees

Of a class that is referred to a match sees the name, the names of its attributes and its identifier
groups, and of the class that refers, beside its layout, no more than the name and the subsystem. A change
of all classes that leaves these as they are leaves the matches as they are.
-/

namespace ClassModel

/-- A change of classes that leaves what a match sees of them. -/
structure Resolved.Class.IsUnseen (change : Class → Class) : Prop where
  name : ∀ cls, (change cls).name = cls.name
  subsystem : ∀ cls, (change cls).subsystem = cls.subsystem
  attributes : ∀ cls, (change cls).attributes.map (·.name) = cls.attributes.map (·.name)
  identifiers : ∀ cls, (change cls).identifiers = cls.identifiers

def SourceSide.mapReferred (change : Resolved.Class → Resolved.Class) (source : SourceSide) : SourceSide :=
  { source with referred := change source.referred }

def Partition.mapReferred (change : Resolved.Class → Resolved.Class) (partition : Partition) : Partition :=
  { partition with sources := partition.sources.map (·.mapReferred change) }

def SidePool.mapReferred (change : Resolved.Class → Resolved.Class) (pool : SidePool) : SidePool :=
  { pool with referred := change pool.referred }

variable {change : Resolved.Class → Resolved.Class} (unseen : Resolved.Class.IsUnseen change)

include unseen

section Dividing

theorem SourceSide.bindTo?_mapReferred (general : Table Name Name) (attr : Name) (navigation : Navigation)
    (sources : List SourceSide) :
    bindTo? general attr navigation (sources.map (·.mapReferred change)) =
      (bindTo? general attr navigation sources).map (·.map (·.mapReferred change)) := by
  induction sources with
  | nil => rfl
  | cons source rest ih =>
    have reached : (source.mapReferred change).isReachedBy navigation = source.isReachedBy navigation := by
      unfold isReachedBy mapReferred
      rw [unseen.name]
    rw [List.map_cons, bindTo?, bindTo?, reached, ih]
    split
    · rfl
    · rw [Option.map_map, Option.map_map]
      rfl

namespace Partition

theorem bindNavigation_mapReferred (className : Name) (rnum : Rnum) (general : Table Name Name)
    (attr : Name) (partition : Partition) (navigation : Navigation) :
    bindNavigation className rnum general attr (partition.mapReferred change) navigation =
      (bindNavigation className rnum general attr partition navigation).map (·.mapReferred change) := by
  unfold bindNavigation mapReferred
  dsimp only
  rw [SourceSide.bindTo?_mapReferred unseen]
  cases SourceSide.bindTo? general attr navigation partition.sources <;> rfl

theorem placeAttribute_mapReferred (className : Name) (layout : Layout) (rnum : Rnum)
    (partition : Partition) (attr : Name) :
    placeAttribute className layout rnum (partition.mapReferred change) attr =
      (placeAttribute className layout rnum partition attr).map (·.mapReferred change) := by
  unfold placeAttribute
  split
  · rfl
  · exact foldlM_map (bindNavigation_mapReferred unseen className rnum (layout.renamesOver rnum) attr) _
      partition

theorem sidesOf_mapValues (classes : Table Name Resolved.Class)
    (relationships : Table Rnum Resolved.Relationship) (cls : Resolved.Class) (rnum : Rnum) :
    sidesOf (classes.mapValues fun _ => change) relationships (change cls) rnum =
      (sidesOf classes relationships cls rnum).map (·.map (·.mapReferred change)) := by
  unfold sidesOf
  rw [unseen.name, unseen.subsystem]
  cases relationships.get? rnum with
  | none => rfl
  | some relationship =>
    dsimp only
    cases relationship.farEnds? cls.name with
    | none => rfl
    | some ends =>
      refine mapM_map (fun far => ?_) ends
      rw [Table.get?_mapValues]
      cases classes.get? far.2 <;> rfl

theorem ofAttributes_mapValues (classes : Table Name Resolved.Class)
    (relationships : Table Rnum Resolved.Relationship) (cls : Resolved.Class) (layout : Layout)
    (rnum : Rnum) (attrs : List Name) :
    ofAttributes (classes.mapValues fun _ => change) relationships (change cls) layout rnum attrs =
      (ofAttributes classes relationships cls layout rnum attrs).map (·.mapReferred change) := by
  unfold ofAttributes
  rw [sidesOf_mapValues unseen, unseen.name]
  cases sidesOf classes relationships cls rnum with
  | error failure => rfl
  | ok sources =>
    exact foldlM_map (placeAttribute_mapReferred unseen cls.name layout rnum) attrs ⟨sources, []⟩

end Partition

end Dividing

section Matching

theorem SidePool.outcomes_mapReferred (pool : SidePool) (free : NamePool) :
    (pool.mapReferred change).outcomes free = pool.outcomes free := by
  have byClass : (pool.mapReferred change).namesClassById free = pool.namesClassById free := by
    have called : (change pool.referred).attributes.any
          (fun attr => Text.lowercase attr.name = Text.lowercase pool.referred.name) =
        pool.referred.attributes.any
          fun attr => Text.lowercase attr.name = Text.lowercase pool.referred.name := by
      have named := congrArg (·.any fun name => Text.lowercase name = Text.lowercase pool.referred.name)
        (unseen.attributes pool.referred)
      simpa only [List.any_map, Function.comp_def] using named
    simp only [namesClassById, mapReferred, unseen.name, called]
  have keys : (pool.mapReferred change).lookupKey free = pool.lookupKey free := by
    funext identifier
    unfold lookupKey
    rw [byClass]
    simp only [mapReferred, unseen.name]
  have drafts : (pool.mapReferred change).draft free = pool.draft free := by
    funext members
    unfold draft
    rw [keys]
    rfl
  have completes : (pool.mapReferred change).complete = pool.complete := by
    funext group draft
    simp only [complete, candidate, mapReferred, unseen.name]
  unfold outcomes
  rw [drafts, completes]
  simp only [mapReferred, unseen.identifiers]

omit unseen in
theorem SourceSide.pool_mapReferred (source : SourceSide) :
    (source.mapReferred change).pool = source.pool.map (·.mapReferred change) := by
  unfold pool
  change (NamePool.ofAttributes source.bound source.renames >>= _) =
    (NamePool.ofAttributes source.bound source.renames >>= _).map _
  cases NamePool.ofAttributes source.bound source.renames <;> rfl

theorem SideCandidates.collect_mapReferred (free : NamePool) (overridesRename : Bool)
    (pools : List (Except Name SidePool)) :
    collect free overridesRename (pools.map (·.map (·.mapReferred change))) =
      collect free overridesRename pools := by
  induction pools generalizing overridesRename with
  | nil => rfl
  | cons pool rest ih =>
    cases pool with
    | error name => rfl
    | ok pool =>
      rw [List.map_cons, Except.map, collect, collect, pool.outcomes_mapReferred unseen]
      simp only [ih]

theorem Partition.match?_mapReferred (partition : Partition) (general : Table Name Name) :
    (partition.mapReferred change).match? general = partition.match? general := by
  have pools : (partition.mapReferred change).sources.map (·.pool) =
      (partition.sources.map (·.pool)).map (·.map (·.mapReferred change)) := by
    unfold mapReferred
    rw [List.map_map, List.map_map]
    exact List.map_congr_left fun source _ => source.pool_mapReferred
  have free : (partition.mapReferred change).free = partition.free := rfl
  unfold match? matchPools
  rw [free, pools]
  simp only [SideCandidates.collect_mapReferred unseen]

/-- A change that no match sees leaves every match of a class as it is. -/
theorem ClassMatches.matchOver_mapValues (classes : Table Name Resolved.Class)
    (relationships : Table Rnum Resolved.Relationship) (cls : Resolved.Class) :
    matchOver (classes.mapValues fun _ => change) relationships (change cls) =
      matchOver classes relationships cls := by
  funext layout entry
  unfold matchOver
  dsimp only
  rw [Partition.ofAttributes_mapValues unseen, unseen.name, unseen.subsystem]
  cases Partition.ofAttributes classes relationships cls layout entry.1 entry.2 with
  | error failure => rfl
  | ok partition =>
    simp only [Except.map, bind, Except.bind, partition.match?_mapReferred unseen]

end Matching

end ClassModel
