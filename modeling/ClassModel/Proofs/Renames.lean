import ClassModel.Proofs.Pairings
import ClassModel.Proofs.Recording
import ClassModel.Proofs.Slots

/-! # Renames in effect

The rename of a navigation is in effect on the side that the navigation leads to, and where there is
none the rename that the attribute has for the relationship. A match never sets a rename in effect
aside: the attribute stands in for an identifier attribute that answers to the rename.
-/

namespace ClassModel

namespace Resolved

/-- The rename of an attribute that holds on every side of a relationship. -/
def Attribute.renameOver? (attr : Attribute) (rnum : Rnum) : Option Name :=
  (attr.renames.find? (·.rnum = rnum)).map (·.source)

namespace Class

/-- Where an attribute of a class navigates over a relationship; of several records of one name the last
that navigates there counts. -/
def navigationsOver (cls : Class) (rnum : Rnum) (name : Name) : List Navigation :=
  ((cls.allAttributes.reverse.find? fun attr =>
    attr.name = name ∧ attr.navigationsOver rnum ≠ []).map (·.navigationsOver rnum)).getD []

/-- Where an attribute navigates by its name, some record of the name does. -/
theorem exists_of_mem_navigationsOver {cls : Class} {rnum : Rnum} {name : Name}
    {navigation : Navigation} (leads : navigation ∈ cls.navigationsOver rnum name) :
    ∃ attr ∈ cls.allAttributes, attr.name = name ∧ navigation ∈ attr.navigations ∧
      navigation.endpoint.rnum = rnum := by
  unfold navigationsOver at leads
  cases found : cls.allAttributes.reverse.find? fun attr =>
      attr.name = name ∧ attr.navigationsOver rnum ≠ [] with
  | none =>
    rw [found] at leads
    cases leads
  | some attr =>
    rw [found] at leads
    have named := List.find?_some found
    rw [decide_eq_true_eq] at named
    obtain ⟨listed, numbered⟩ := List.mem_filter.mp leads
    exact ⟨attr, List.mem_reverse.mp (List.mem_of_find?_eq_some found), named.1, listed,
      of_decide_eq_true numbered⟩

/-- The rename of an attribute of a class that holds on every side of a relationship. -/
def renameOver? (cls : Class) (rnum : Rnum) (name : Name) : Option Name :=
  cls.allAttributes.findSome? fun attr => if attr.name = name then attr.renameOver? rnum else none

/-- The rename in effect for an attribute on a side: that of its navigation to the side, or else the one
that holds on every side. -/
def renameOn? (cls : Class) (rnum : Rnum) (side : Side) (name : Name) : Option Name :=
  ((cls.navigationsOver rnum name).find? (·.endpoint.side = side)).bind (·.rename) <|>
    cls.renameOver? rnum name

/-- The rename of the only attribute of a name is its own. -/
theorem renameOver?_of_only {cls : Class} {attr : Attribute} (owned : attr ∈ cls.allAttributes)
    (only : ∀ other ∈ cls.allAttributes, other.name = attr.name → other = attr) (rnum : Rnum) :
    cls.renameOver? rnum attr.name = attr.renameOver? rnum := by
  unfold renameOver?
  cases found : cls.allAttributes.findSome? fun other =>
      if other.name = attr.name then other.renameOver? rnum else none with
  | none => simpa [eq_comm] using List.findSome?_eq_none_iff.mp found attr owned
  | some source =>
    obtain ⟨other, listed, given⟩ := List.exists_of_findSome?_eq_some found
    split at given
    · rename_i named
      rw [← given, only other listed named]
    · cases given

/-- The rename in effect for the only attribute of a name is its own. -/
theorem renameOn?_of_only {cls : Class} {attr : Attribute} (owned : attr ∈ cls.allAttributes)
    (only : ∀ other ∈ cls.allAttributes, other.name = attr.name → other = attr) (rnum : Rnum)
    (side : Side) :
    cls.renameOn? rnum side attr.name =
      (((attr.navigationsOver rnum).find? (·.endpoint.side = side)).bind (·.rename) <|>
        attr.renameOver? rnum) := by
  have navigations : cls.navigationsOver rnum attr.name = attr.navigationsOver rnum := by
    unfold navigationsOver
    cases found : cls.allAttributes.reverse.find? fun other =>
        other.name = attr.name ∧ other.navigationsOver rnum ≠ [] with
    | none =>
      have stays := List.find?_eq_none.mp found attr (List.mem_reverse.mpr owned)
      have nowhere : attr.navigationsOver rnum = [] := by simpa using stays
      exact nowhere.symm
    | some other =>
      have named : other.name = attr.name ∧ other.navigationsOver rnum ≠ [] := by
        simpa using List.find?_some found
      rw [only other (List.mem_reverse.mp (List.mem_of_find?_eq_some found)) named.1]
      rfl
  rw [renameOn?, navigations, renameOver?_of_only owned only]

end Class

end Resolved

namespace Layout

/-- Entering navigations leads an attribute where the record at hand navigates, if it does. -/
theorem navigationsOf_addNavigations {className : Name} {attr : Resolved.Attribute} {rnum : Rnum}
    {layout next : Layout} (ran : addNavigations className attr rnum layout = .ok next) (other : Rnum)
    (name : Name) :
    next.navigationsOf other name =
      if rnum = other ∧ attr.name = name ∧ attr.navigationsOver other ≠ [] then attr.navigationsOver other
      else layout.navigationsOf other name := by
  unfold addNavigations at ran
  dsimp only at ran
  split at ran
  · cases ran
  · split at ran
    · rename_i none
      cases ran
      rw [List.isEmpty_iff] at none
      rw [if_neg]
      rintro ⟨rfl, _, navigates⟩
      exact navigates none
    · rename_i navigates
      cases ran
      rw [List.isEmpty_iff] at navigates
      simp only [navigationsOf, Table.get?_update]
      by_cases here : rnum = other
      · subst here
        simp only [↓reduceIte, Option.bind_some, Table.get?_insert, navigates, ne_eq, not_false_eq_true,
          and_true, true_and]
        split
        · rfl
        · cases layout.navigations.get? rnum <;> rfl
      · simp [here]

/-- The navigations of a record are entered only if they lead to different sides. -/
theorem sides_of_addNavigations {className : Name} {attr : Resolved.Attribute} {rnum : Rnum}
    {layout next : Layout} (ran : addNavigations className attr rnum layout = .ok next) :
    ((attr.navigationsOver rnum).map (·.endpoint.side)).Nodup := by
  unfold addNavigations at ran
  dsimp only at ran
  split at ran
  · cases ran
  · rename_i distinct
    exact Decidable.not_not.mp distinct

section Attribute

variable {className : Name} {attr : Resolved.Attribute} {layout next : Layout}

/-- Adding a reference enters the navigations of the record over one relationship. -/
theorem addReference_enters {rnum : Rnum} (ran : addReference className attr layout rnum = .ok next) :
    ∃ before, (before.navigations = layout.navigations ∧ before.renames = layout.renames) ∧
      addNavigations className attr rnum before = .ok next := by
  unfold addReference at ran
  refine ⟨_, ⟨?_, ?_⟩, ran⟩ <;> rfl

/-- Adding a choice enters the navigations of the record over one relationship. -/
theorem addChoice_enters {rnum : Rnum} (ran : addChoice className attr layout rnum = .ok next) :
    ∃ before, (before.navigations = layout.navigations ∧ before.renames = layout.renames) ∧
      addNavigations className attr rnum before = .ok next := by
  unfold addChoice at ran
  refine ⟨_, ⟨?_, ?_⟩, ran⟩ <;> rfl

theorem addRename_navigations {rename : Rename}
    (ran : addRename className attr.name layout rename = .ok next) :
    next.navigations = layout.navigations := by
  unfold addRename at ran
  split at ran
  · cases ran
  · cases ran
    rfl

theorem navigationsOf_congr {other : Layout} (same : other.navigations = layout.navigations) (rnum : Rnum)
    (name : Name) : other.navigationsOf rnum name = layout.navigationsOf rnum name := by
  rw [navigationsOf, same, ← navigationsOf]

/-- A run that enters the navigations of a record over some relationships leads its name there. -/
private theorem navigationsOf_run {step : Layout → Rnum → Except AnalysisError Layout} {rnums : List Rnum}
    (ran : rnums.foldlM step layout = .ok next)
    (enters : ∀ {rnum state result}, step state rnum = .ok result → ∃ before,
      (before.navigations = state.navigations ∧ before.renames = state.renames) ∧
        addNavigations className attr rnum before = .ok result)
    (other : Rnum) (name : Name) :
    next.navigationsOf other name =
      if other ∈ rnums ∧ attr.name = name ∧ attr.navigationsOver other ≠ [] then attr.navigationsOver other
      else layout.navigationsOf other name := by
  let Leads (done : List Rnum) (state : Layout) : Prop := state.navigationsOf other name =
    if other ∈ done ∧ attr.name = name ∧ attr.navigationsOver other ≠ [] then attr.navigationsOver other
    else layout.navigationsOf other name
  have start : Leads [] layout := by simp [Leads]
  refine foldlM_tracks Leads ran start fun done rnum state result holds ran => ?_
  obtain ⟨before, ⟨same, _⟩, entered⟩ := enters ran
  change _ = _
  -- what is entered is that of the record at hand each time, so a relationship may come again
  rw [navigationsOf_addNavigations entered, navigationsOf_congr same, holds]
  by_cases here : attr.name = name ∧ attr.navigationsOver other ≠ []
  · by_cases new : rnum = other
    · simp [here.1, here.2, new]
    · simp [here.1, here.2, new, Ne.symm new]
  · rw [if_neg fun both => here both.2, if_neg fun both => here both.2, if_neg fun both => here both.2]

/-- Adding an attribute leads its name where the record at hand navigates, if it does. -/
theorem navigationsOf_addAttribute (ran : addAttribute className layout attr = .ok next) (other : Rnum)
    (name : Name) :
    next.navigationsOf other name =
      if attr.name = name ∧ attr.navigationsOver other ≠ [] then attr.navigationsOver other
      else layout.navigationsOf other name := by
  obtain ⟨referring, references, ran⟩ := bind_eq_ok_iff.mp ran
  obtain ⟨choosing, choices, renames⟩ := bind_eq_ok_iff.mp ran
  have kept : next.navigations = choosing.navigations :=
    foldlM_invariant (fun state => state.navigations = choosing.navigations) renames rfl
      fun _ _ _ _ same step => (addRename_navigations step).trans same
  rw [navigationsOf_congr kept, navigationsOf_run choices addChoice_enters,
    navigationsOf_run references addReference_enters]
  by_cases here : attr.name = name ∧ attr.navigationsOver other ≠ []
  · -- a record that navigates over a relationship formalizes it or chooses over it
    have entered : other ∈ attr.unionRelationships ∨ other ∈ attr.formalizes := by
      obtain ⟨navigation, leads⟩ := List.exists_mem_of_ne_nil _ here.2
      obtain ⟨listed, along⟩ := List.mem_filter.mp leads
      cases union : attr.isUnionOver other with
      | true => exact .inl (List.contains_iff_mem.mp union)
      | false =>
        exact .inr (Resolved.Attribute.mem_formalizes_iff.mpr
          ⟨union, .inl ⟨navigation, listed, of_decide_eq_true along⟩⟩)
    rw [if_pos here]
    by_cases union : other ∈ attr.unionRelationships
    · rw [if_pos ⟨union, here⟩]
    · rw [if_neg fun both => union both.1, if_pos ⟨entered.resolve_left union, here⟩]
  · rw [if_neg fun both => here both.2, if_neg fun both => here both.2, if_neg here]

/-- Whether every attribute navigates to a side of a relationship at most once. -/
def LeadsApart (layout : Layout) : Prop :=
  ∀ rnum name, ((layout.navigationsOf rnum name).map (·.endpoint.side)).Nodup

theorem LeadsApart.congr {other : Layout} (apart : layout.LeadsApart)
    (same : other.navigations = layout.navigations) : other.LeadsApart := by
  intro rnum name
  rw [navigationsOf_congr same]
  exact apart rnum name

theorem LeadsApart.addNavigations {rnum : Rnum} (apart : layout.LeadsApart)
    (ran : Layout.addNavigations className attr rnum layout = .ok next) : next.LeadsApart := by
  intro other name
  rw [navigationsOf_addNavigations ran]
  split
  · rename_i here
    rw [← here.1]
    exact sides_of_addNavigations ran
  · exact apart other name

theorem LeadsApart.addAttribute (apart : layout.LeadsApart)
    (ran : Layout.addAttribute className layout attr = .ok next) : next.LeadsApart := by
  obtain ⟨referring, references, ran⟩ := bind_eq_ok_iff.mp ran
  obtain ⟨choosing, choices, renames⟩ := bind_eq_ok_iff.mp ran
  have referred : referring.LeadsApart := foldlM_invariant LeadsApart references apart
    fun _ _ _ _ apart step => by
      obtain ⟨before, ⟨same, _⟩, entered⟩ := addReference_enters step
      exact (apart.congr same).addNavigations entered
  have chosen : choosing.LeadsApart := foldlM_invariant LeadsApart choices referred
    fun _ _ _ _ apart step => by
      obtain ⟨before, ⟨same, _⟩, entered⟩ := addChoice_enters step
      exact (apart.congr same).addNavigations entered
  exact foldlM_invariant LeadsApart renames chosen
    fun _ _ _ _ apart step => apart.congr (addRename_navigations step)

/-- An attribute navigates to a side by the only navigation that leads there. -/
theorem LeadsApart.find?_eq (apart : layout.LeadsApart) {rnum : Rnum} {name : Name} {navigation : Navigation}
    (leads : navigation ∈ layout.navigationsOf rnum name) {side : Side}
    (onSide : navigation.endpoint.side = side) :
    (layout.navigationsOf rnum name).find? (·.endpoint.side = side) = some navigation :=
  find?_eq_of_nodup_map (apart rnum name) leads onSide

/-- Adding a rename gives it to its attribute, which has none there before. -/
theorem renamesOver_addRename {rename : Rename}
    (ran : addRename className attr.name layout rename = .ok next) (rnum : Rnum) (name : Name) :
    (next.renamesOver rnum).get? name = ((layout.renamesOver rnum).get? name).or
      (if rename.rnum = rnum ∧ attr.name = name then some rename.source else none) := by
  unfold addRename at ran
  split at ran
  · cases ran
  · rename_i absent
    cases ran
    simp only [renamesOver, Table.get?_update]
    by_cases here : rename.rnum = rnum
    · subst here
      rw [if_pos rfl, Option.getD_some, Table.get?_insert]
      by_cases same : attr.name = name
      · subst same
        rw [Bool.not_eq_true, Table.contains_eq_false_iff, renamesOver] at absent
        simp [absent]
      · simp [same]
    · simp [here]

/-- Adding an attribute gives it the rename of the record at hand, if it has one. -/
theorem renamesOver_addAttribute (ran : addAttribute className layout attr = .ok next) (rnum : Rnum)
    (name : Name) :
    (next.renamesOver rnum).get? name = ((layout.renamesOver rnum).get? name).or
      (if attr.name = name then attr.renameOver? rnum else none) := by
  obtain ⟨referring, references, ran⟩ := bind_eq_ok_iff.mp ran
  obtain ⟨choosing, choices, renames⟩ := bind_eq_ok_iff.mp ran
  have referred : referring.renames = layout.renames :=
    foldlM_invariant (fun state => state.renames = layout.renames) references rfl
      fun _ _ _ _ kept step => by
        obtain ⟨before, ⟨_, same⟩, entered⟩ := addReference_enters step
        exact (addNavigations_keeps entered).2.2.trans (same.trans kept)
  have chosen : choosing.renames = layout.renames :=
    foldlM_invariant (fun state => state.renames = layout.renames) choices referred
      fun _ _ _ _ kept step => by
        obtain ⟨before, ⟨_, same⟩, entered⟩ := addChoice_enters step
        exact (addNavigations_keeps entered).2.2.trans (same.trans kept)
  let Gives (done : List Rename) (state : Layout) : Prop :=
    (state.renamesOver rnum).get? name = ((layout.renamesOver rnum).get? name).or
      (if attr.name = name then (done.find? (·.rnum = rnum)).map (·.source) else none)
  have start : Gives [] choosing := by simp [Gives, renamesOver, chosen]
  refine foldlM_tracks Gives renames start fun done rename state result holds ran => ?_
  change _ = _
  rw [renamesOver_addRename ran, holds, Option.or_assoc]
  congr
  by_cases same : attr.name = name
  · simp only [same, if_true, and_true, List.find?_append, List.find?_singleton]
    by_cases here : rename.rnum = rnum
    · simp [here]
    · simp [here]
  · simp [same]

end Attribute

/-- The navigations of a layout are those of the class. -/
theorem navigationsOf_ofClass {cls : Resolved.Class} {layout : Layout} (laid : ofClass cls = .ok layout)
    (rnum : Rnum) (name : Name) : layout.navigationsOf rnum name = cls.navigationsOver rnum name := by
  let Leads (done : List Resolved.Attribute) (state : Layout) : Prop := state.navigationsOf rnum name =
    ((done.reverse.find? fun attr => attr.name = name ∧ attr.navigationsOver rnum ≠ []).map
      (·.navigationsOver rnum)).getD []
  suffices tracked : Leads ([] ++ cls.allAttributes) layout from tracked
  refine foldlM_tracks Leads laid (rfl : Leads [] {}) fun done attr state next holds ran => ?_
  change _ = _
  rw [navigationsOf_addAttribute ran, holds, List.reverse_append, List.reverse_singleton,
    List.singleton_append, List.find?_cons]
  by_cases here : attr.name = name ∧ attr.navigationsOver rnum ≠ []
  · simp [here]
  · simp [here]

/-- The renames of a layout are those of the class. -/
theorem renamesOver_ofClass {cls : Resolved.Class} {layout : Layout} (laid : ofClass cls = .ok layout)
    (rnum : Rnum) (name : Name) : (layout.renamesOver rnum).get? name = cls.renameOver? rnum name := by
  let Gives (done : List Resolved.Attribute) (state : Layout) : Prop :=
    (state.renamesOver rnum).get? name = done.findSome? fun attr =>
      if attr.name = name then attr.renameOver? rnum else none
  suffices tracked : Gives ([] ++ cls.allAttributes) layout from tracked
  refine foldlM_tracks Gives laid (rfl : Gives [] {}) fun done attr state next holds ran => ?_
  change _ = _
  rw [renamesOver_addAttribute ran, holds, List.findSome?_append, List.findSome?_singleton]

theorem leadsApart_ofClass {cls : Resolved.Class} {layout : Layout} (laid : ofClass cls = .ok layout) :
    layout.LeadsApart :=
  foldlM_invariant LeadsApart laid (fun _ _ => .nil) fun _ _ _ _ apart step => apart.addAttribute step

end Layout

/-- What holds of the renames of a side: a bound attribute navigates to the side and has the rename of its
navigation, or else the one that holds on every side; other attributes have none. -/
structure SourceSide.IsRenamed (layout : Layout) (rnum : Rnum) (source : SourceSide) : Prop where
  bound : ∀ attr ∈ source.bound, ∃ navigation ∈ layout.navigationsOf rnum attr,
    source.isReachedBy navigation = true ∧
      source.renames.get? attr = (navigation.rename <|> (layout.renamesOver rnum).get? attr)
  unbound : ∀ attr, attr ∉ source.bound → source.renames.get? attr = none

namespace SourceSide

theorem get?_renames_bind (source : SourceSide) (general : Table Name Name) (attr : Name)
    (navigation : Navigation) (other : Name) :
    (source.bind general attr navigation).renames.get? other =
      if attr = other then (navigation.rename <|> general.get? attr) <|> source.renames.get? attr
      else source.renames.get? other := by
  unfold bind
  generalize (navigation.rename <|> general.get? attr) = rename
  cases rename with
  | none => by_cases same : attr = other <;> simp [same]
  | some identifier => simp [Table.get?_insert]

/-- Binding an attribute by one of its navigations keeps what holds of the renames of a side. -/
theorem IsRenamed.bind {layout : Layout} {rnum : Rnum} {source : SourceSide}
    (renamed : source.IsRenamed layout rnum) {attr : Name} {navigation : Navigation}
    (leads : navigation ∈ layout.navigationsOf rnum attr) (reached : source.isReachedBy navigation = true) :
    (source.bind (layout.renamesOver rnum) attr navigation).IsRenamed layout rnum := by
  have renames := get?_renames_bind source (layout.renamesOver rnum) attr navigation
  constructor
  · intro other listed
    rw [renames]
    by_cases same : attr = other
    · subst same
      rw [if_pos rfl]
      cases rename : (navigation.rename <|> (layout.renamesOver rnum).get? attr) with
      | some identifier => exact ⟨navigation, leads, reached, rename.symm⟩
      | none =>
        -- no rename is entered, and one of an earlier navigation to the side stays
        by_cases early : attr ∈ source.bound
        · exact renamed.bound attr early
        · exact ⟨navigation, leads, reached, (renamed.unbound attr early).trans rename.symm⟩
    · rw [if_neg same]
      refine renamed.bound other ((List.mem_append.mp listed).resolve_right fun new => ?_)
      exact same (List.mem_singleton.mp new).symm
  · intro other absent
    obtain ⟨early, new⟩ := not_or.mp (List.mem_append.not.mp absent)
    rw [renames, if_neg fun same => new (List.mem_singleton.mpr same.symm)]
    exact renamed.unbound other early

end SourceSide

/-- What holds of the renames of the sides of a partition. -/
theorem Partition.ofAttributes_renamed {classes : Table Name Resolved.Class}
    {relationships : Table Rnum Resolved.Relationship} {cls : Resolved.Class} {layout : Layout}
    {rnum : Rnum} {attrs : List Name} {partition : Partition}
    (success : ofAttributes classes relationships cls layout rnum attrs = .ok partition) :
    ∀ source ∈ partition.sources, source.IsRenamed layout rnum := by
  obtain ⟨sources, sided, placed⟩ := bind_eq_ok_iff.mp success
  obtain ⟨_, _, _, _, pairs⟩ := sidesOf_eq_ok_iff.mp sided
  refine foldlM_invariant (fun state => ∀ source ∈ state.sources, source.IsRenamed layout rnum) placed ?_ ?_
  · intro source listed
    obtain ⟨_, _, referred, _, rfl⟩ := exists_left_of_forall₂ pairs listed
    exact ⟨fun _ bound => by simp at bound, fun _ _ => rfl⟩
  · intro attr _ state next holds ran
    unfold placeAttribute at ran
    split at ran
    · cases ran
      exact holds
    · refine foldlM_invariant (fun state => ∀ source ∈ state.sources, source.IsRenamed layout rnum) ran
        holds ?_
      intro navigation leads state next holds ran source listed
      unfold bindNavigation at ran
      split at ran
      · cases ran
      · rename_i bound found
        cases ran
        obtain ⟨original, known, same | ⟨reached, rfl⟩⟩ :=
          exists_left_of_forall₂ (SourceSide.bindTo?_spec found) listed
        · exact same ▸ holds original known
        · exact (holds original known).bind leads reached

section Effect

variable {classes : Table Name Resolved.Class} {relationships : Table Rnum Resolved.Relationship}
  {cls owner : Resolved.Class} {layout : Layout} {rnum : Rnum} {attrs : List Name} {partition : Partition}
  (laid : Layout.ofClass owner = .ok layout)
  (divided : Partition.ofAttributes classes relationships cls layout rnum attrs = .ok partition)

include laid divided

/-- A bound attribute has the rename that is in effect for it on its side. -/
theorem Partition.get?_renames_of_bound {source : SourceSide} (listed : source ∈ partition.sources)
    {attr : Name} (bound : attr ∈ source.bound) :
    source.renames.get? attr = owner.renameOn? rnum source.side attr := by
  obtain ⟨navigation, leads, reached, rename⟩ := (ofAttributes_renamed divided source listed).bound attr bound
  obtain ⟨onSide, _⟩ := Bool.and_eq_true_iff.mp reached
  rw [Resolved.Class.renameOn?, ← Layout.navigationsOf_ofClass laid, ← Layout.renamesOver_ofClass laid,
    (Layout.leadsApart_ofClass laid).find?_eq leads (of_decide_eq_true onSide).symm, Option.bind_some, rename]

/-- A free attribute has the rename that is in effect for it, on whatever side. -/
theorem Partition.get?_renamesOver_of_free {attr : Name} (free : attr ∈ partition.free) (side : Side) :
    (layout.renamesOver rnum).get? attr = owner.renameOn? rnum side attr := by
  rw [(ofAttributes_divides divided).free, List.mem_filter, List.isEmpty_iff] at free
  rw [Resolved.Class.renameOn?, ← Layout.navigationsOf_ofClass laid, ← Layout.renamesOver_ofClass laid, free.2]
  rfl

end Effect

namespace ClassMatches

end ClassMatches

namespace Analysis

end Analysis

namespace Sample

end Sample

namespace Analysis

end Analysis

end ClassModel
