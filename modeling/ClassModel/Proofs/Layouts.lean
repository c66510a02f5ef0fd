import ClassModel.Analysis.Layout
import ClassModel.Proofs.Navigating

/-! # What a layout lists

For each relationship the layout of a class lists the attributes that formalize it, in the order
of their declaration, and the attributes that choose between types over it.
-/

namespace ClassModel

theorem Resolved.Attribute.mem_formalizes_iff {attr : Attribute} {rnum : Rnum} :
    rnum ∈ attr.formalizes ↔ attr.isUnionOver rnum = false ∧
      ((∃ navigation ∈ attr.navigations, navigation.endpoint.rnum = rnum) ∨
        (rnum ∈ attr.relationships ∧ rnum.isOrdinal = false)) := by
  simp only [formalizes, List.mem_eraseDups, List.mem_append, List.mem_filter, List.mem_map,
    Bool.not_eq_eq_eq_not, Bool.not_true, Bool.and_eq_true]
  constructor
  · rintro (⟨navigated, plain⟩ | ⟨listed, ordinal, plain⟩)
    · exact ⟨plain, .inl navigated⟩
    · exact ⟨plain, .inr ⟨listed, ordinal⟩⟩
  · rintro ⟨plain, navigated | ⟨listed, ordinal⟩⟩
    · exact .inl ⟨navigated, plain⟩
    · exact .inr ⟨listed, ordinal, plain⟩

namespace Layout

/-- The attributes that a table of a layout lists for a relationship. -/
def listedFor (table : Table Rnum (List Name)) (rnum : Rnum) : List Name :=
  (table.get? rnum).getD []

theorem listedFor_update (table : Table Rnum (List Name)) (rnum other : Rnum)
    (change : List Name → List Name) :
    listedFor (table.update rnum [] change) other =
      if rnum = other then change (listedFor table rnum) else listedFor table other := by
  unfold listedFor
  rw [Table.get?_update]
  split <;> rfl

/-- Entering navigations leaves the lists of attributes and the renames as they are. -/
theorem addNavigations_keeps {className : Name} {attr : Resolved.Attribute} {rnum : Rnum}
    {layout next : Layout} (ran : addNavigations className attr rnum layout = .ok next) :
    next.inclusion = layout.inclusion ∧ next.unionInclusion = layout.unionInclusion ∧
      next.renames = layout.renames := by
  unfold addNavigations at ran
  dsimp only at ran
  split at ran
  · simp at ran
  · split at ran <;> cases ran <;> exact ⟨rfl, rfl, rfl⟩

theorem addRename_keeps {className attr : Name} {layout next : Layout} {rename : Rename}
    (ran : addRename className attr layout rename = .ok next) :
    next.inclusion = layout.inclusion ∧ next.unionInclusion = layout.unionInclusion := by
  unfold addRename at ran
  split at ran
  · simp at ran
  · cases ran
    exact ⟨rfl, rfl⟩

private theorem flatMap_single {rnum : Rnum} {name : Name} {rnums : List Rnum}
    (distinct : rnums.Nodup) :
    rnums.flatMap (fun other => if other = rnum then [name] else []) =
      if rnum ∈ rnums then [name] else [] := by
  induction rnums with
  | nil => rfl
  | cons first rest ih =>
    obtain ⟨absent, distinct⟩ := List.nodup_cons.mp distinct
    rw [List.flatMap_cons, ih distinct]
    by_cases same : first = rnum
    · subst same
      simp [absent]
    · simp [same, Ne.symm same]

private theorem references_listed {className : Name} {attr : Resolved.Attribute}
    {rnums : List Rnum} (distinct : rnums.Nodup) {layout next : Layout}
    (ran : rnums.foldlM (addReference className attr) layout = .ok next) (rnum : Rnum) :
    listedFor next.inclusion rnum =
        listedFor layout.inclusion rnum ++ (if rnum ∈ rnums then [attr.name] else []) ∧
      next.unionInclusion = layout.unionInclusion := by
  constructor
  · rw [foldlM_appends (fun layout => listedFor layout.inclusion rnum)
      (fun other => if other = rnum then [attr.name] else []) ran, flatMap_single distinct]
    intro other _ state next step
    rw [(addNavigations_keeps step).1, listedFor_update]
    split
    · rename_i same
      rw [same]
    · rw [List.append_nil]
  · exact foldlM_invariant (fun state => state.unionInclusion = layout.unionInclusion) ran rfl
      fun _ _ _ _ same step => (addNavigations_keeps step).2.1.trans same

private theorem choices_listed {className : Name} {attr : Resolved.Attribute} {rnums : List Rnum}
    {layout next : Layout} (ran : rnums.foldlM (addChoice className attr) layout = .ok next)
    (rnum : Rnum) :
    next.inclusion = layout.inclusion ∧
      ∀ name, name ∈ listedFor next.unionInclusion rnum ↔
        name ∈ listedFor layout.unionInclusion rnum ∨ (name = attr.name ∧ rnum ∈ rnums) := by
  induction rnums generalizing layout with
  | nil =>
    cases ran
    simp
  | cons first rest ih =>
    rw [List.foldlM_cons] at ran
    obtain ⟨entered, step, later⟩ := bind_eq_ok_iff.mp ran
    obtain ⟨inclusion, listed⟩ := ih later
    obtain ⟨kept, joined, _⟩ := addNavigations_keeps step
    refine ⟨inclusion.trans kept, fun name => ?_⟩
    rw [listed, joined, listedFor_update, List.mem_cons]
    by_cases same : first = rnum
    · subst same
      rw [if_pos rfl, mem_append_unless]
      tauto
    · simp [same, Ne.symm same]

/-- An attribute joins the lists of the relationships that it formalizes and of those that it
chooses over. -/
theorem addAttribute_listed {className : Name} {layout next : Layout} {attr : Resolved.Attribute}
    (ran : addAttribute className layout attr = .ok next) (rnum : Rnum) :
    listedFor next.inclusion rnum =
        listedFor layout.inclusion rnum ++ (if rnum ∈ attr.formalizes then [attr.name] else []) ∧
      ∀ name, name ∈ listedFor next.unionInclusion rnum ↔
        name ∈ listedFor layout.unionInclusion rnum ∨
          (name = attr.name ∧ rnum ∈ attr.unionRelationships) := by
  obtain ⟨referring, references, ran⟩ := bind_eq_ok_iff.mp ran
  obtain ⟨choosing, choices, renames⟩ := bind_eq_ok_iff.mp ran
  have referred := references_listed (nodup_eraseDups _) references rnum
  have chosen := choices_listed choices rnum
  have renamed : next.inclusion = choosing.inclusion ∧
      next.unionInclusion = choosing.unionInclusion := by
    refine foldlM_invariant (fun state => state.inclusion = choosing.inclusion ∧
      state.unionInclusion = choosing.unionInclusion) renames ⟨rfl, rfl⟩ ?_
    intro rename _ state next same step
    obtain ⟨inclusion, unionInclusion⟩ := addRename_keeps step
    exact ⟨inclusion.trans same.1, unionInclusion.trans same.2⟩
  rw [renamed.1, renamed.2, chosen.1, referred.1]
  refine ⟨rfl, fun name => ?_⟩
  rw [chosen.2, referred.2]

/-- For each relationship a layout lists the attributes that formalize it, in order. -/
theorem inclusion_ofClass {cls : Resolved.Class} {layout : Layout} (laid : ofClass cls = .ok layout)
    (rnum : Rnum) :
    listedFor layout.inclusion rnum =
      cls.allAttributes.flatMap fun attr => if rnum ∈ attr.formalizes then [attr.name] else [] := by
  rw [foldlM_appends (fun layout => listedFor layout.inclusion rnum)
    (fun attr => if rnum ∈ attr.formalizes then [attr.name] else []) laid]
  · rfl
  · exact fun attr _ state next step => (addAttribute_listed step rnum).1

/-- Whether a table lists relationships only for some attribute. -/
def IsFilled (table : Table Rnum (List Name)) : Prop :=
  ∀ rnum attrs, table.get? rnum = some attrs → attrs ≠ []

theorem IsFilled.update {table : Table Rnum (List Name)} (filled : IsFilled table) (rnum : Rnum)
    {change : List Name → List Name} (fills : ∀ attrs, change attrs ≠ []) :
    IsFilled (table.update rnum [] change) := by
  intro other attrs found
  rw [Table.get?_update] at found
  split at found
  · cases found
    exact fills _
  · exact filled other attrs found

/-- A layout lists a relationship only for some attribute. -/
theorem isFilled_ofClass {cls : Resolved.Class} {layout : Layout} (laid : ofClass cls = .ok layout) :
    IsFilled layout.inclusion ∧ IsFilled layout.unionInclusion := by
  let Filled (layout : Layout) : Prop := IsFilled layout.inclusion ∧ IsFilled layout.unionInclusion
  refine foldlM_invariant Filled laid (by simp [Filled, IsFilled]) fun attr _ state next filled ran => ?_
  obtain ⟨referring, references, ran⟩ := bind_eq_ok_iff.mp ran
  obtain ⟨choosing, choices, renames⟩ := bind_eq_ok_iff.mp ran
  have referred : Filled referring := by
    refine foldlM_invariant Filled references filled fun rnum _ state next filled step => ?_
    obtain ⟨inclusion, unionInclusion, _⟩ := addNavigations_keeps step
    exact ⟨inclusion ▸ filled.1.update rnum (by simp), unionInclusion ▸ filled.2⟩
  have chosen : Filled choosing := by
    refine foldlM_invariant Filled choices referred fun rnum _ state next filled step => ?_
    obtain ⟨inclusion, unionInclusion, _⟩ := addNavigations_keeps step
    refine ⟨inclusion ▸ filled.1, unionInclusion ▸ filled.2.update rnum fun members => ?_⟩
    split
    · rename_i listed
      exact List.ne_nil_of_mem (List.contains_iff_mem.mp listed)
    · simp
  refine foldlM_invariant Filled renames chosen fun rename _ state next filled step => ?_
  obtain ⟨inclusion, unionInclusion⟩ := addRename_keeps step
  exact ⟨inclusion ▸ filled.1, unionInclusion ▸ filled.2⟩

theorem inclusion_ne_nil {cls : Resolved.Class} {layout : Layout} (laid : ofClass cls = .ok layout)
    {rnum : Rnum} {attrs : List Name} (listed : layout.inclusion.get? rnum = some attrs) :
    attrs ≠ [] :=
  (isFilled_ofClass laid).1 rnum attrs listed

theorem mem_inclusion_iff {cls : Resolved.Class} {layout : Layout} (laid : ofClass cls = .ok layout)
    {rnum : Rnum} {name : Name} :
    name ∈ listedFor layout.inclusion rnum ↔
      ∃ attr ∈ cls.allAttributes, attr.name = name ∧ rnum ∈ attr.formalizes := by
  rw [inclusion_ofClass laid, List.mem_flatMap]
  refine exists_congr fun attr => and_congr_right fun _ => ?_
  split
  · rename_i formalizes
    simp [formalizes, eq_comm]
  · rename_i other
    simp [other]

/-- For each relationship a layout lists the attributes that choose between types over it. -/
theorem mem_unionInclusion_iff {cls : Resolved.Class} {layout : Layout}
    (laid : ofClass cls = .ok layout) {rnum : Rnum} {name : Name} :
    name ∈ listedFor layout.unionInclusion rnum ↔
      ∃ attr ∈ cls.allAttributes, attr.name = name ∧ rnum ∈ attr.unionRelationships := by
  have run : ∀ (attrs : List Resolved.Attribute) (start : Layout),
      attrs.foldlM (addAttribute cls.name) start = .ok layout →
      (name ∈ listedFor layout.unionInclusion rnum ↔
        name ∈ listedFor start.unionInclusion rnum ∨
          ∃ attr ∈ attrs, attr.name = name ∧ rnum ∈ attr.unionRelationships) := by
    intro attrs
    induction attrs with
    | nil =>
      intro start done
      cases done
      simp
    | cons attr rest ih =>
      intro start ran
      rw [List.foldlM_cons] at ran
      obtain ⟨next, step, later⟩ := bind_eq_ok_iff.mp ran
      rw [ih next later, (addAttribute_listed step rnum).2, or_assoc, List.exists_mem_cons_iff]
      simp only [eq_comm (a := name)]
  rw [run _ _ laid]
  simp [listedFor]

end Layout

/-- No attribute of well-formed tables formalizes an ordinal relationship. -/
theorem WellFormed.plain_of_formalizes {relationships : Table Rnum Resolved.Relationship}
    {classes : Table Name Resolved.Class} (sound : WellFormed relationships classes) {name : Name}
    {cls : Resolved.Class} (found : classes.get? name = some cls) {attr : Resolved.Attribute}
    (present : attr ∈ cls.allAttributes) {rnum : Rnum} (formalizes : rnum ∈ attr.formalizes) :
    rnum.isOrdinal = false := by
  obtain ⟨_, ⟨navigation, leads, rfl⟩ | ⟨_, plain⟩⟩ :=
    Resolved.Attribute.mem_formalizes_iff.mp formalizes
  · obtain ⟨relationship, _, plain, offered⟩ := Endpoint.mem_seenFrom_iff.mp
      (sound.navigations name cls found attr present navigation leads)
    rw [Resolved.Relationship.rnum_of_mem_endpoints offered]
    exact plain
  · exact plain

end ClassModel
