import ClassModel.Proofs.Commuting

/-! # Which records last

A record in the referential table gives way only to a later one of the same key in the same place. So
what a place holds in the end are the postings to it that no later one of their key replaces.
-/

namespace ClassModel

namespace Reference

/-- Every record with its key, where records have one. -/
def keyed (reference : Reference) : List (Option VariantKey × Formalization) :=
  match reference.data with
  | .plain data => [(none, data)]
  | .variants variants => variants.map fun variant => (some variant.key, variant.data)

theorem map_keyed (reference : Reference) : reference.keyed.map (·.2) = reference.all := by
  obtain ⟨_, _, _ | variants⟩ := reference
  · rfl
  · simp [keyed, all]

/-- The records of a place with their keys, none if it is empty. -/
def keyedIn (held : Option Reference) : List (Option VariantKey × Formalization) :=
  (held.map keyed).getD []

end Reference

namespace ReferentialTable

/-- The records over a relationship to a class. -/
def recordsAt (table : ReferentialTable) (referred : Name) (rnum : Rnum) : List Formalization :=
  ((table.reference? referred rnum).map (·.all)).getD []

/-- The records of one class on one side of a relationship to a class. -/
def recordsOf (table : ReferentialTable) (referred : Name) (rnum : Rnum) (formalizer : Name)
    (side : Side) : List Formalization :=
  (table.recordsAt referred rnum).filter fun data => data.formalizer = formalizer ∧ data.side = side

theorem mem_recordsAt_iff {table : ReferentialTable} {referred : Name} {rnum : Rnum}
    {data : Formalization} :
    data ∈ table.recordsAt referred rnum ↔
      ∃ reference, table.reference? referred rnum = some reference ∧ data ∈ reference.all := by
  unfold recordsAt
  cases table.reference? referred rnum <;> simp

theorem recordsAt_eq_map_keyedIn (table : ReferentialTable) (referred : Name) (rnum : Rnum) :
    table.recordsAt referred rnum = (Reference.keyedIn (table.reference? referred rnum)).map (·.2) := by
  unfold recordsAt Reference.keyedIn
  cases table.reference? referred rnum with
  | none => rfl
  | some reference => exact reference.map_keyed.symm

end ReferentialTable

/-- Entering a record takes the place of the one of its key and leaves the others. -/
theorem Variant.perm_enter {key : VariantKey} {data : Formalization} {variants : List Variant}
    (ascending : Ascending variants) :
    (enter key data variants).Perm
      (⟨key, data⟩ :: variants.filter fun variant => variant.key ≠ key) := by
  induction variants with
  | nil => exact .refl _
  | cons first rest ih =>
    obtain ⟨below, sorted⟩ := List.pairwise_cons.mp ascending
    simp only [enter]
    split
    · rename_i same
      have others : rest.filter (fun variant => variant.key ≠ key) = rest :=
        List.filter_eq_self.mpr fun other present =>
          decide_eq_true (Ne.symm (same ▸ VariantKey.ne_of_before (below other present)))
      rw [List.filter_cons_of_neg (by simpa using same), others]
    · rename_i different
      rw [List.filter_cons_of_pos (by simpa using different)]
      split
      · rename_i less
        have others : rest.filter (fun variant => variant.key ≠ key) = rest :=
          List.filter_eq_self.mpr fun other present => decide_eq_true
            (Ne.symm (VariantKey.ne_of_before (VariantKey.before_trans less (below other present))))
        rw [others]
      · exact ((ih sorted).cons first).trans (.swap ..)

namespace Posting

variable {classes : Table Name Resolved.Class} {relationship : Resolved.Relationship}

/-- A right posting takes the place of the record of its key and leaves the others. -/
theorem IsRight.perm_enterInto {posting : Posting} (right : posting.IsRight classes relationship)
    {held : Option Reference}
    (holds : ∀ reference, held = some reference →
      reference.IsRight classes relationship posting.referred) :
    (Reference.keyedIn (some (posting.enterInto held))).Perm ((posting.key?, posting.data) ::
      (Reference.keyedIn held).filter fun entry => entry.1 ≠ posting.key?) := by
  cases held with
  | none => cases keyed : posting.key? <;> simp [Reference.keyedIn, Reference.keyed, enterInto,
      Reference.enter, Variant.enter, keyed]
  | some reference =>
    have holds := holds reference rfl
    have keeps := right.keeps.trans holds.variants.symm
    obtain ⟨kind, relationshipKind, known | variants⟩ := reference
    · have unkeyed : posting.key? = none := by simpa [Reference.hasVariants] using keeps
      simp [Reference.keyedIn, Reference.keyed, enterInto, Reference.enter, unkeyed]
    · obtain ⟨key, keyed⟩ := Option.isSome_iff_exists.mp (keeps.trans rfl)
      have entered : (Variant.enter key posting.data _).Perm _ := Variant.perm_enter (holds.ascending _ rfl)
      have viewed := entered.map fun variant => (some variant.key, variant.data)
      simpa [Reference.keyedIn, Reference.keyed, enterInto, Reference.enter, keyed,
        List.filter_map, Function.comp_def] using viewed

/-- The postings that no later one of the same key replaces. -/
def lasting : List Posting → List Posting
  | [] => []
  | posting :: rest =>
    if ∃ later ∈ rest, later.key? = posting.key? then lasting rest else posting :: lasting rest

theorem mem_of_mem_lasting {postings : List Posting} {posting : Posting}
    (lasts : posting ∈ lasting postings) : posting ∈ postings := by
  induction postings with
  | nil => exact lasts
  | cons first rest ih =>
    simp only [lasting] at lasts
    split at lasts
    · exact List.mem_cons_of_mem _ (ih lasts)
    · exact (List.mem_cons.mp lasts).elim (· ▸ List.mem_cons_self ..)
        fun later => List.mem_cons_of_mem _ (ih later)

theorem lasting_pair (first second : Posting) :
    lasting [first, second] = if second.key? = first.key? then [second] else [first, second] := by
  simp [lasting]

/-- Postings that are told apart by their keys last in the same way without the others. -/
theorem lasting_filter {postings : List Posting} {keep : Posting → Bool}
    (apart : ∀ first ∈ postings, ∀ second ∈ postings,
      first.key? = second.key? → keep first = keep second) :
    lasting (postings.filter keep) = (lasting postings).filter keep := by
  induction postings with
  | nil => rfl
  | cons posting rest ih =>
    have ih := ih fun first listed second present =>
      apart first (List.mem_cons_of_mem _ listed) second (List.mem_cons_of_mem _ present)
    cases kept : keep posting with
    | false =>
      rw [List.filter_cons_of_neg (by simp [kept]), ih, lasting]
      split
      · rfl
      · rw [List.filter_cons_of_neg (by simp [kept])]
    | true =>
      -- what replaces the posting has its key, and so is kept with it
      have replaced : (∃ later ∈ rest.filter keep, later.key? = posting.key?) ↔
          ∃ later ∈ rest, later.key? = posting.key? := by
        refine exists_congr fun later => and_congr_left fun same => ?_
        rw [List.mem_filter, and_iff_left_iff_imp]
        intro present
        rw [apart later (List.mem_cons_of_mem _ present) posting (List.mem_cons_self ..) same, kept]
      rw [List.filter_cons_of_pos kept, lasting, lasting, ih]
      simp only [replaced]
      split
      · rfl
      · rw [List.filter_cons_of_pos kept]

/-- After a run of right postings to one place, it has the records that last, and of those that it had
the ones that no posting replaces. -/
theorem perm_foldl_enterInto {referred : Name} {postings : List Posting}
    (right : ∀ posting ∈ postings, posting.IsRight classes relationship ∧ posting.referred = referred)
    {held : Option Reference}
    (holds : ∀ reference, held = some reference → reference.IsRight classes relationship referred) :
    (Reference.keyedIn (postings.foldl (fun held posting => some (posting.enterInto held)) held)).Perm
      ((Reference.keyedIn held).filter (fun entry => ∀ posting ∈ postings, posting.key? ≠ entry.1) ++
        (lasting postings).map fun posting => (posting.key?, posting.data)) := by
  -- each posting changes what the later ones find in the place
  induction postings generalizing held with
  | nil => simp [lasting]
  | cons posting rest ih =>
    obtain ⟨⟨agrees, here⟩, right⟩ := List.forall_mem_cons.mp right
    subst here
    have entered := agrees.perm_enterInto holds
    have holds : ∀ reference, some (posting.enterInto held) = some reference →
        reference.IsRight classes relationship posting.referred := by
      rintro _ ⟨⟩
      cases held with
      | none => exact agrees.enterInto_none
      | some reference => exact agrees.enterInto_some (holds reference rfl)
    refine ((ih right holds).trans ((entered.filter _).append_right _)).trans ?_
    have kept : ∀ entries : List (Option VariantKey × Formalization),
        (entries.filter fun entry => entry.1 ≠ posting.key?).filter
            (fun entry => ∀ later ∈ rest, later.key? ≠ entry.1) =
          entries.filter fun entry => ∀ later ∈ posting :: rest, later.key? ≠ entry.1 := by
      intro entries
      rw [List.filter_filter]
      refine List.filter_congr fun entry _ => ?_
      rw [← Bool.decide_and, decide_eq_decide, List.forall_mem_cons, and_comm, ne_comm]
    by_cases replaced : ∃ later ∈ rest, later.key? = posting.key?
    · rw [List.filter_cons_of_neg (by simpa using replaced), kept, lasting, if_pos replaced]
    · rw [List.filter_cons_of_pos (by simpa using replaced), kept, lasting, if_neg replaced]
      exact List.perm_middle.symm

end Posting

section Places

/-- The postings of some classes to one place. -/
def postingsAt (relationships : Table Rnum Resolved.Relationship) (found : List ClassMatches)
    (referred : Name) (rnum : Rnum) : List Posting :=
  (found.flatMap (·.postings relationships)).filter fun posting =>
    posting.referred = referred ∧ posting.rnum = rnum

variable {classes : Table Name Resolved.Class} {relationships : Table Rnum Resolved.Relationship}
  {found : List ClassMatches}

theorem mem_postingsAt_iff {referred : Name} {rnum : Rnum} {posting : Posting} :
    posting ∈ postingsAt relationships found referred rnum ↔
      (∃ matching ∈ found, posting ∈ matching.postings relationships) ∧
        posting.referred = referred ∧ posting.rnum = rnum := by
  simp [postingsAt]

/-- What lasts in a place of the postings there. -/
theorem References.recordsAt_perm (sound : WellFormed relationships classes)
    (runs : List.Forall₂ (fun cls found => ClassMatches.ofClass classes relationships cls = .ok found)
      classes.values found) (referred : Name) (rnum : Rnum) :
    ((ofMatches relationships classes.keys found).referential.recordsAt referred rnum).Perm
      ((Posting.lasting (postingsAt relationships found referred rnum)).map (·.data)) := by
  rw [ReferentialTable.recordsAt_eq_map_keyedIn, referential_ofMatches,
    ReferentialTable.reference?_foldl_post, ReferentialTable.reference?_ofClasses]
  have right : ∀ posting ∈ postingsAt relationships found referred rnum, ∃ relationship,
      relationships.get? rnum = some relationship ∧ posting.IsRight classes relationship ∧
        posting.referred = referred := by
    intro posting listed
    obtain ⟨⟨matching, member, posted⟩, here, rfl⟩ := mem_postingsAt_iff.mp listed
    obtain ⟨relationship, related, right⟩ := postings_right sound runs member posted
    exact ⟨relationship, related, right, here⟩
  change (Reference.keyedIn ((postingsAt relationships found referred rnum).foldl _ none)).map _ |>.Perm _
  generalize postingsAt relationships found referred rnum = postings at right ⊢
  cases related : relationships.get? rnum with
  | none =>
    have empty : postings = [] := List.eq_nil_iff_forall_not_mem.mpr fun posting listed => by
      obtain ⟨_, known, _⟩ := right posting listed
      rw [related] at known
      cases known
    rw [empty]
    exact .refl _
  | some relationship =>
    have agree : ∀ posting ∈ postings, posting.IsRight classes relationship ∧
        posting.referred = referred := by
      intro posting listed
      obtain ⟨_, known, right⟩ := right posting listed
      rw [related] at known
      cases known
      exact right
    have run := (Posting.perm_foldl_enterInto agree fun _ (held : none = some _) => nomatch held).map (·.2)
    simpa [Reference.keyedIn, Function.comp_def] using run

/-- Every record is that of one side of a match of its class. -/
theorem References.exists_of_mem_recordsAt (sound : WellFormed relationships classes)
    (runs : List.Forall₂ (fun cls found => ClassMatches.ofClass classes relationships cls = .ok found)
      classes.values found) {referred : Name} {rnum : Rnum} {data : Formalization}
    (recorded : data ∈ (ofMatches relationships classes.keys found).referential.recordsAt referred rnum) :
    ∃ matching ∈ found, ∃ sides, (rnum, sides) ∈ matching.references ∧ ∃ side ∈ sides,
      side.referred = referred ∧ matching.formalization side = data := by
  obtain ⟨posting, lasts, rfl⟩ :=
    List.mem_map.mp ((recordsAt_perm sound runs referred rnum).mem_iff.mp recorded)
  obtain ⟨⟨matching, member, posted⟩, rfl, rfl⟩ :=
    mem_postingsAt_iff.mp (Posting.mem_of_mem_lasting lasts)
  obtain ⟨⟨_, sides⟩, present, posted⟩ := List.mem_flatMap.mp posted
  obtain ⟨side, listed, rfl⟩ := List.mem_map.mp posted
  exact ⟨matching, member, sides, present, side, listed, rfl, rfl⟩

end Places

end ClassModel
