import ClassModel.Proofs.AddedRenames
import ClassModel.Proofs.Renames

/-! # Layouts and partitions under further renames

Renames that find no other in their place can be added to a class: its layout comes out as before but for
the renames over the relationships of those added. The attributes of a relationship divide as before, and
the bound ones have the rename that is in effect for them.
-/

namespace ClassModel

namespace Layout

variable {className : Name} {attr : Resolved.Attribute}

/-- The table of renames after those of an attribute. -/
def enterRenames (attr : Name) (renames : List Rename) (table : Table Rnum (Table Name Name)) :
    Table Rnum (Table Name Name) :=
  renames.foldl (fun table rename => table.update rename.rnum .empty (·.insert attr rename.source)) table

theorem get?_enterRenames_of_not_mem {attr : Name} {renames : List Rename} {rnum : Rnum}
    (unnamed : ∀ rename ∈ renames, rename.rnum ≠ rnum) (table : Table Rnum (Table Name Name)) :
    (enterRenames attr renames table).get? rnum = table.get? rnum := by
  refine foldl_invariant (fun state : Table Rnum (Table Name Name) => state.get? rnum = table.get? rnum) rfl
    fun rename listed state same => ?_
  rw [Table.get?_update, if_neg (unnamed rename listed), same]

theorem get?_enterRenames_congr {attr : Name} {renames : List Rename} {rnum : Rnum}
    {left right : Table Rnum (Table Name Name)} (same : left.get? rnum = right.get? rnum) :
    (enterRenames attr renames left).get? rnum = (enterRenames attr renames right).get? rnum := by
  induction renames generalizing left right with
  | nil => exact same
  | cons rename rest ih =>
    refine ih ?_
    rw [Table.get?_update, Table.get?_update]
    split
    · rename_i here
      rw [here, same]
    · exact same

/-- The renames of an attribute are entered if they are for different relationships and find none of the
attribute in their place. -/
theorem foldlM_addRename_eq_ok_iff {attr : Name} {renames : List Rename} {layout next : Layout} :
    renames.foldlM (addRename className attr) layout = .ok next ↔ (renames.map (·.rnum)).Nodup ∧
      (∀ rename ∈ renames, (layout.renamesOver rename.rnum).get? attr = none) ∧
      next = { layout with renames := enterRenames attr renames layout.renames } := by
  induction renames generalizing layout with
  | nil => simp [pure, Except.pure, enterRenames, eq_comm]
  | cons rename rest ih =>
    have step : ∀ state, addRename className attr layout rename = .ok state ↔
        (layout.renamesOver rename.rnum).get? attr = none ∧
          { layout with renames := layout.renames.update rename.rnum .empty (·.insert attr rename.source) } =
            state := by
      intro state
      unfold addRename
      rw [← Table.contains_eq_false_iff]
      split
      · rename_i taken
        simp [taken]
      · rename_i absent
        simp [absent]
    have entered : ∀ rnum, (renamesOver { layout with
        renames := layout.renames.update rename.rnum .empty (·.insert attr rename.source) } rnum).get? attr =
          if rename.rnum = rnum then some rename.source else (layout.renamesOver rnum).get? attr := by
      intro rnum
      unfold renamesOver
      rw [Table.get?_update]
      split
      · rw [Option.getD_some, Table.get?_insert, if_pos rfl]
      · rfl
    rw [List.foldlM_cons, bind_eq_ok_iff, List.map_cons, List.nodup_cons, List.forall_mem_cons]
    simp only [step, ih]
    constructor
    · rintro ⟨_, ⟨absent, rfl⟩, distinct, others, rfl⟩
      refine ⟨⟨fun listed => ?_, distinct⟩, ⟨absent, fun other listed => ?_⟩, rfl⟩
      · obtain ⟨other, present, same⟩ := List.mem_map.mp listed
        have clash := others other present
        rw [entered, if_pos same.symm] at clash
        cases clash
      · have free := others other listed
        rw [entered] at free
        split at free
        · cases free
        · exact free
    · rintro ⟨⟨apart, distinct⟩, ⟨absent, others⟩, rfl⟩
      refine ⟨_, ⟨absent, rfl⟩, distinct, fun other listed => ?_, rfl⟩
      rw [entered, if_neg fun same => apart (List.mem_map.mpr ⟨other, listed, same.symm⟩)]
      exact others other listed

/-- Nothing but renames depends on the renames there are. -/
theorem addNavigations_renames (rnum : Rnum) (layout : Layout) (renames : Table Rnum (Table Name Name)) :
    addNavigations className attr rnum { layout with renames } =
      (addNavigations className attr rnum layout).map ({ · with renames }) := by
  unfold addNavigations
  dsimp only
  split
  · rfl
  · split <;> rfl

theorem addReference_renames (layout : Layout) (renames : Table Rnum (Table Name Name)) (rnum : Rnum) :
    addReference className attr { layout with renames } rnum =
      (addReference className attr layout rnum).map ({ · with renames }) :=
  addNavigations_renames rnum
    { layout with inclusion := layout.inclusion.update rnum [] (· ++ [attr.name]) } renames

theorem addChoice_renames (layout : Layout) (renames : Table Rnum (Table Name Name)) (rnum : Rnum) :
    addChoice className attr { layout with renames } rnum =
      (addChoice className attr layout rnum).map ({ · with renames }) :=
  addNavigations_renames rnum { layout with
    unionInclusion := layout.unionInclusion.update rnum [] fun members =>
      if members.contains attr.name then members else members ++ [attr.name] } renames

/-- An attribute is added with further renames as it is without, but for the renames. -/
theorem addAttribute_addRenames {layout next : Layout} (ran : addAttribute className layout attr = .ok next)
    {renames : Table Rnum (Table Name Name)} {further : List Rename} (distinct : (further.map (·.rnum)).Nodup)
    (fresh : ∀ rename ∈ further, attr.renameOver? rename.rnum = none)
    (absent : ∀ rename ∈ attr.renames ++ further,
      (renamesOver { layout with renames } rename.rnum).get? attr.name = none) :
    addAttribute className { layout with renames } (attr.addRenames further) =
        .ok { next with renames := enterRenames attr.name (attr.renames ++ further) renames } ∧
      next.renames = enterRenames attr.name attr.renames layout.renames := by
  obtain ⟨referring, references, ran⟩ := bind_eq_ok_iff.mp ran
  obtain ⟨choosing, choices, ran⟩ := bind_eq_ok_iff.mp ran
  obtain ⟨own, _, rfl⟩ := foldlM_addRename_eq_ok_iff.mp ran
  have apart : ((attr.renames ++ further).map (·.rnum)).Nodup := by
    rw [List.map_append, List.nodup_append]
    refine ⟨own, distinct, ?_⟩
    rintro _ known _ new rfl
    obtain ⟨rename, listed, same⟩ := List.mem_map.mp known
    obtain ⟨other, added, rfl⟩ := List.mem_map.mp new
    have unknown := Option.map_eq_none_iff.mp (fresh other added)
    exact List.find?_eq_none.mp unknown rename listed (decide_eq_true same)
  have unrenamed : ∀ renames : Table Rnum (Table Name Name),
      attr.formalizes.foldlM (addReference className attr) { layout with renames } =
          .ok { referring with renames } ∧
        attr.unionRelationships.foldlM (addChoice className attr) { referring with renames } =
          .ok { choosing with renames } := by
    intro renames
    constructor
    · rw [foldlM_map (fun state => addReference_renames state renames), references]
      rfl
    · rw [foldlM_map (fun state => addChoice_renames state renames), choices]
      rfl
  refine ⟨bind_eq_ok_iff.mpr ⟨_, (unrenamed renames).1, bind_eq_ok_iff.mpr ⟨_, (unrenamed renames).2, ?_⟩⟩, ?_⟩
  · exact foldlM_addRename_eq_ok_iff.mpr ⟨apart, absent, rfl⟩
  · -- what is entered before the renames leaves those there are
    obtain ⟨refers, chooses⟩ := unrenamed layout.renames
    have kept : referring.renames = layout.renames :=
      congrArg (·.renames) (Except.ok.inj (references.symm.trans refers))
    rw [← kept] at chooses ⊢
    have alsoKept : choosing.renames = referring.renames :=
      congrArg (·.renames) (Except.ok.inj (choices.symm.trans chooses))
    rw [alsoKept]

/-- Where no attribute is given a rename over a relationship for which it has one, a class with further
renames is laid out as it is without, but for the renames over their relationships. -/
theorem ofClass_addRenames {cls : Resolved.Class} {layout : Layout} (laid : ofClass cls = .ok layout)
    (named : (cls.allAttributes.map (·.name)).Nodup) {added : Name → Name → List Rename}
    (distinct : ∀ attr ∈ cls.allAttributes, ((added cls.name attr.name).map (·.rnum)).Nodup)
    (fresh : ∀ attr ∈ cls.allAttributes, ∀ rename ∈ added cls.name attr.name,
      attr.renameOver? rename.rnum = none) :
    ∃ renames, ofClass (cls.addRenames added) = .ok { layout with renames } ∧
      ∀ rnum, (∀ attr ∈ cls.allAttributes, ∀ rename ∈ added cls.name attr.name, rename.rnum ≠ rnum) →
        renames.get? rnum = layout.renames.get? rnum := by
  let Follows (done : List Resolved.Attribute) (state peer : Layout) : Prop :=
    peer = { state with renames := peer.renames } ∧
    (∀ rnum name, name ∉ done.map (·.name) → (peer.renamesOver rnum).get? name = none) ∧
    ∀ rnum, (∀ attr ∈ cls.allAttributes, ∀ rename ∈ added cls.name attr.name, rename.rnum ≠ rnum) →
      peer.renames.get? rnum = state.renames.get? rnum
  have run : ∃ peer, cls.allAttributes.foldlM (fun state attr =>
      addAttribute cls.name state (attr.addRenames (added cls.name attr.name))) {} = .ok peer ∧
        Follows cls.allAttributes layout peer := by
    refine foldlM_simulates Follows laid ⟨rfl, fun _ _ _ => rfl, fun _ _ => rfl⟩ ?_
    rintro before attr after listed state peer next ⟨same, absent, unaffected⟩ ran
    have owned : attr ∈ cls.allAttributes := by simp [listed]
    have new : attr.name ∉ before.map (·.name) := by
      rw [listed, List.map_append, List.map_cons] at named
      exact fun known => (List.nodup_append.mp named).2.2 _ known _ (List.mem_cons_self ..) rfl
    obtain ⟨went, entered⟩ := addAttribute_addRenames ran (distinct attr owned) (fresh attr owned)
      fun rename _ => same ▸ absent rename.rnum _ new
    rw [← same] at went
    refine ⟨_, went, rfl, fun rnum name outside => ?_, fun rnum unaffecting => ?_⟩
    · rw [List.map_append, List.map_singleton, List.mem_append, List.mem_singleton, not_or] at outside
      rw [renamesOver_addAttribute went, absent rnum name outside.1, Option.none_or,
        if_neg fun same => outside.2 same.symm]
    · dsimp only
      rw [entered, enterRenames, List.foldl_append, ← enterRenames, ← enterRenames,
        get?_enterRenames_of_not_mem (unaffecting attr owned),
        get?_enterRenames_congr (unaffected rnum unaffecting)]
  obtain ⟨peer, ran, same, _, unaffected⟩ := run
  refine ⟨peer.renames, ?_, unaffected⟩
  rw [ofClass, Resolved.Class.allAttributes_addRenames, List.foldlM_map, ← same]
  exact ran

end Layout

/-- Whether two sides are the same but for the renames of their attributes. -/
def SourceSide.BindsAlike (source peer : SourceSide) : Prop := peer = { source with renames := peer.renames }

theorem SourceSide.BindsAlike.side {source peer : SourceSide} (alike : source.BindsAlike peer) :
    peer.side = source.side :=
  congrArg (·.side) alike

theorem SourceSide.BindsAlike.bound {source peer : SourceSide} (alike : source.BindsAlike peer) :
    peer.bound = source.bound :=
  congrArg (·.bound) alike

/-- Two partitions that are the same but for the renames of bound attributes. -/
structure Partition.DividesAlike (partition peer : Partition) : Prop where
  sources : List.Forall₂ SourceSide.BindsAlike partition.sources peer.sources
  free : peer.free = partition.free

section Dividing

variable {general other : Table Name Name} {attr : Name}

theorem SourceSide.BindsAlike.bind {source peer : SourceSide} (alike : source.BindsAlike peer)
    (navigation : Navigation) :
    (source.bind general attr navigation).BindsAlike (peer.bind other attr navigation) := by
  rw [BindsAlike] at alike
  rw [alike]
  rfl

/-- An attribute is bound to the same side whatever renames there are. -/
theorem SourceSide.exists_bindTo? {navigation : Navigation} {sources peers bound : List SourceSide}
    (pairs : List.Forall₂ BindsAlike sources peers)
    (found : bindTo? general attr navigation sources = some bound) :
    ∃ result, bindTo? other attr navigation peers = some result ∧ List.Forall₂ BindsAlike bound result := by
  induction pairs generalizing bound with
  | nil => cases found
  | @cons source peer sources peers alike others ih =>
    have reached : peer.isReachedBy navigation = source.isReachedBy navigation := by
      rw [BindsAlike] at alike
      rw [alike]
      rfl
    rw [bindTo?] at found ⊢
    rw [reached]
    split at found
    · rename_i here
      cases found
      exact ⟨_, if_pos here, .cons (alike.bind navigation) others⟩
    · rename_i elsewhere
      obtain ⟨later, ran, rfl⟩ := Option.map_eq_some_iff.mp found
      obtain ⟨result, went, remains⟩ := ih ran
      exact ⟨peer :: result, by rw [if_neg elsewhere, went]; rfl, .cons alike remains⟩

namespace Partition

theorem exists_bindNavigation {className : Name} {rnum : Rnum} {partition peer next : Partition}
    (alike : partition.DividesAlike peer) {navigation : Navigation}
    (ran : bindNavigation className rnum general attr partition navigation = .ok next) :
    ∃ result, bindNavigation className rnum other attr peer navigation = .ok result ∧
      next.DividesAlike result := by
  unfold bindNavigation at ran ⊢
  split at ran
  · cases ran
  · rename_i bound found
    cases ran
    obtain ⟨result, went, remains⟩ := SourceSide.exists_bindTo? alike.sources found
    exact ⟨{ peer with sources := result }, by rw [went], remains, alike.free⟩

theorem exists_placeAttribute {className : Name} {layout : Layout} {rnum : Rnum}
    {partition peer next : Partition}
    (alike : partition.DividesAlike peer) (ran : placeAttribute className layout rnum partition attr = .ok next)
    (renames : Table Rnum (Table Name Name)) :
    ∃ result, placeAttribute className { layout with renames } rnum peer attr = .ok result ∧
      next.DividesAlike result := by
  have navigations : Layout.navigationsOf { layout with renames } rnum attr =
      layout.navigationsOf rnum attr := rfl
  unfold placeAttribute at ran ⊢
  rw [navigations]
  split at ran
  · cases ran
    exact ⟨_, rfl, alike.sources, by rw [alike.free]⟩
  · exact foldlM_simulates (fun _ => DividesAlike) ran alike
      fun _ navigation _ _ state peer next alike ran => exists_bindNavigation alike ran

/-- The attributes of a relationship divide alike whatever renames there are. -/
theorem exists_ofAttributes {classes : Table Name Resolved.Class}
    {relationships : Table Rnum Resolved.Relationship} {cls : Resolved.Class} {layout : Layout} {rnum : Rnum}
    {attrs : List Name} {partition : Partition}
    (success : ofAttributes classes relationships cls layout rnum attrs = .ok partition)
    (renames : Table Rnum (Table Name Name)) :
    ∃ peer, ofAttributes classes relationships cls { layout with renames } rnum attrs = .ok peer ∧
      partition.DividesAlike peer := by
  obtain ⟨sources, sided, placed⟩ := bind_eq_ok_iff.mp success
  have start : DividesAlike ⟨sources, []⟩ ⟨sources, []⟩ := ⟨List.forall₂_same.mpr fun _ _ => rfl, rfl⟩
  obtain ⟨peer, went, alike⟩ := foldlM_simulates (fun _ => DividesAlike) placed start
    fun _ attr _ _ state peer next alike ran => exists_placeAttribute alike ran renames
  exact ⟨peer, bind_eq_ok_iff.mpr ⟨sources, sided, went⟩, alike⟩

end Partition

end Dividing

end ClassModel
