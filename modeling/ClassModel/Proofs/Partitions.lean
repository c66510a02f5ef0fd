import ClassModel.Analysis.Partition
import ClassModel.Proofs.Layouts

/-! # What a partition divides

The sides of a partition are those that the relationship has for the class. An attribute of the
list is free if it navigates nowhere over the relationship, and only attributes that navigate are
bound to a side.
-/

namespace ClassModel

namespace SourceSide

/-- Binding an attribute binds it to sides that its navigation leads to, and leaves the others. -/
theorem bindTo?_spec {general : Table Name Name} {attr : Name} {navigation : Navigation}
    {sources bound : List SourceSide} (found : bindTo? general attr navigation sources = some bound) :
    List.Forall₂ (fun source result => result = source ∨
      (source.isReachedBy navigation = true ∧ result = source.bind general attr navigation))
      sources bound := by
  induction sources generalizing bound with
  | nil => simp [bindTo?] at found
  | cons source rest ih =>
    simp only [bindTo?] at found
    split at found
    · rename_i reached
      cases found
      exact .cons (.inr ⟨reached, rfl⟩) (List.forall₂_same.mpr fun _ _ => .inl rfl)
    · obtain ⟨later, others, rfl⟩ := Option.map_eq_some_iff.mp found
      exact .cons (.inl rfl) (ih others)

/-- An attribute is bound unless its navigation leads to none of the sides. -/
theorem bindTo?_eq_none_iff {general : Table Name Name} {attr : Name} {navigation : Navigation}
    {sources : List SourceSide} :
    bindTo? general attr navigation sources = none ↔
      ∀ source ∈ sources, source.isReachedBy navigation = false := by
  induction sources with
  | nil => simp [bindTo?]
  | cons source rest ih =>
    rw [bindTo?, List.forall_mem_cons]
    split
    · rename_i reached
      simp [reached]
    · rename_i missed
      simpa [missed] using ih

end SourceSide

namespace Partition

/-- The sides with the classes there. -/
def ends (partition : Partition) : List (Side × Resolved.Class) :=
  partition.sources.map fun source => (source.side, source.referred)

/-- Whether every attribute bound to a side satisfies a condition. -/
def BindsOnly (allowed : Name → Prop) (partition : Partition) : Prop :=
  ∀ source ∈ partition.sources, ∀ attr ∈ source.bound, allowed attr

theorem bindNavigation_spec {className : Name} {rnum : Rnum} {general : Table Name Name} {attr : Name}
    {partition next : Partition} {navigation : Navigation}
    (ran : bindNavigation className rnum general attr partition navigation = .ok next) :
    next.ends = partition.ends ∧ next.free = partition.free ∧
      ∀ allowed : Name → Prop, allowed attr → partition.BindsOnly allowed → next.BindsOnly allowed := by
  unfold bindNavigation at ran
  split at ran
  · simp at ran
  · rename_i bound found
    cases ran
    have pairs := SourceSide.bindTo?_spec found
    refine ⟨map_eq_of_forall₂ pairs ?_, rfl, ?_⟩
    · rintro source result (rfl | ⟨_, rfl⟩) <;> rfl
    · intro allowed holds only source present other listed
      obtain ⟨original, known, same | ⟨_, rfl⟩⟩ := exists_left_of_forall₂ pairs present
      · exact only original known other (same ▸ listed)
      · rcases List.mem_append.mp listed with early | new
        · exact only original known other early
        · rw [List.mem_singleton.mp new]
          exact holds

/-- An attribute is free if it navigates nowhere, and is bound only if it navigates. -/
theorem placeAttribute_spec {className : Name} {layout : Layout} {rnum : Rnum}
    {partition next : Partition} {attr : Name}
    (ran : placeAttribute className layout rnum partition attr = .ok next) :
    next.ends = partition.ends ∧
      next.free = partition.free ++ (if layout.navigationsOf rnum attr = [] then [attr] else []) ∧
      ∀ allowed : Name → Prop, (layout.navigationsOf rnum attr ≠ [] → allowed attr) →
        partition.BindsOnly allowed → next.BindsOnly allowed := by
  unfold placeAttribute at ran
  split at ran
  · rename_i free
    cases ran
    exact ⟨rfl, by simp [free], fun _ _ only => only⟩
  · rename_i navigates
    rw [if_neg navigates, List.append_nil]
    refine foldlM_invariant (fun state => state.ends = partition.ends ∧ state.free = partition.free ∧
      ∀ allowed : Name → Prop, (layout.navigationsOf rnum attr ≠ [] → allowed attr) →
        partition.BindsOnly allowed → state.BindsOnly allowed) ran ⟨rfl, rfl, fun _ _ only => only⟩ ?_
    rintro navigation _ state result ⟨ends, free, binds⟩ step
    obtain ⟨sameEnds, sameFree, bound⟩ := bindNavigation_spec step
    exact ⟨sameEnds.trans ends, sameFree.trans free, fun allowed holds only =>
      bound allowed (holds navigates) (binds allowed holds only)⟩

/-- The sides that a class refers to, with nothing bound. -/
theorem sidesOf_eq_ok_iff {classes : Table Name Resolved.Class}
    {relationships : Table Rnum Resolved.Relationship} {cls : Resolved.Class} {rnum : Rnum}
    {sources : List SourceSide} :
    sidesOf classes relationships cls rnum = .ok sources ↔ ∃ relationship ends,
      relationships.get? rnum = some relationship ∧ relationship.farEnds? cls.name = some ends ∧
        List.Forall₂ (fun far source => ∃ referred, classes.get? far.2 = some referred ∧
          source = { side := far.1, referred }) ends sources := by
  unfold sidesOf
  constructor
  · intro success
    split at success
    · simp at success
    · rename_i relationship known
      split at success
      · simp at success
      · rename_i ends offered
        refine ⟨relationship, ends, known, offered, (mapM_eq_ok_iff.mp success).imp ?_⟩
        rintro ⟨side, name⟩ source ran
        dsimp only at ran
        split at ran
        · simp at ran
        · rename_i referred present
          exact ⟨referred, present, (Except.ok.inj ran).symm⟩
  · rintro ⟨relationship, ends, known, offered, pairs⟩
    rw [known]
    dsimp only
    rw [offered]
    refine mapM_eq_ok_iff.mpr (pairs.imp ?_)
    rintro ⟨side, name⟩ source ⟨referred, present, rfl⟩
    dsimp only at present ⊢
    rw [present]

/-- The division of the attributes that a class has for a relationship. -/
structure Divides (classes : Table Name Resolved.Class)
    (relationships : Table Rnum Resolved.Relationship) (cls : Resolved.Class) (layout : Layout)
    (rnum : Rnum) (attrs : List Name) (partition : Partition) : Prop where
  ends : ∃ relationship, relationships.get? rnum = some relationship ∧
    ∃ far, relationship.farEnds? cls.name = some far ∧
      List.Forall₂ (fun far source => source.side = far.1 ∧
        classes.get? far.2 = some source.referred) far partition.sources
  free : partition.free = attrs.filter fun attr => (layout.navigationsOf rnum attr).isEmpty
  bound : ∀ source ∈ partition.sources, ∀ attr ∈ source.bound,
    attr ∈ attrs ∧ layout.navigationsOf rnum attr ≠ []

theorem ofAttributes_divides {classes : Table Name Resolved.Class}
    {relationships : Table Rnum Resolved.Relationship} {cls : Resolved.Class} {layout : Layout}
    {rnum : Rnum} {attrs : List Name} {partition : Partition}
    (success : ofAttributes classes relationships cls layout rnum attrs = .ok partition) :
    Divides classes relationships cls layout rnum attrs partition := by
  obtain ⟨sources, sided, placed⟩ := bind_eq_ok_iff.mp success
  obtain ⟨relationship, far, known, offered, pairs⟩ := sidesOf_eq_ok_iff.mp sided
  have same : partition.ends = ends ⟨sources, []⟩ :=
    foldlM_invariant (fun state => state.ends = ends ⟨sources, []⟩) placed rfl
      fun _ _ _ _ holds step => (placeAttribute_spec step).1.trans holds
  constructor
  · refine ⟨relationship, known, far, offered, ?_⟩
    have opposite : List.Forall₂ (fun far place => place.1 = far.1 ∧
        classes.get? far.2 = some place.2) far partition.ends := by
      rw [same, ends, List.forall₂_map_right_iff]
      refine pairs.imp ?_
      rintro _ _ ⟨referred, present, rfl⟩
      exact ⟨rfl, present⟩
    rw [ends, List.forall₂_map_right_iff] at opposite
    exact opposite
  · rw [foldlM_appends (·.free) (fun attr => if layout.navigationsOf rnum attr = [] then [attr] else [])
      placed fun _ _ _ _ step => (placeAttribute_spec step).2.1]
    simp only [List.nil_append]
    clear success placed same
    induction attrs with
    | nil => rfl
    | cons attr rest ih =>
      rw [List.flatMap_cons, ih]
      cases navigations : layout.navigationsOf rnum attr <;> simp [navigations]
  · refine foldlM_invariant (fun state => state.BindsOnly fun attr =>
      attr ∈ attrs ∧ layout.navigationsOf rnum attr ≠ []) placed ?_ ?_
    · intro source present attr bound
      obtain ⟨_, _, referred, _, rfl⟩ := exists_left_of_forall₂ pairs present
      simp at bound
    · exact fun attr listed state next holds step =>
        (placeAttribute_spec step).2.2 _ (fun navigates => ⟨listed, navigates⟩) holds

end Partition

end ClassModel
