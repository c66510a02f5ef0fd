import ClassModel.Analysis.References
import ClassModel.Proofs.Tables

/-! # The referential table as a run of postings

A posting is one record with the place in the table where it is entered. The table of a model is
the run of the postings of all its classes, and what it holds in one place is the run of the
postings to that place.
-/

namespace ClassModel

namespace VariantKey

theorem before_trans {first second third : VariantKey} (less : first.before second = true)
    (more : second.before third = true) : first.before third = true := by
  cases first <;> cases second <;> cases third <;>
    simp only [before, decide_eq_true_eq, reduceCtorEq] at less more ⊢
  · exact String.lt_trans less more
  · exact String.lt_trans less more

theorem not_before_self (key : VariantKey) : key.before key = false := by
  cases key <;> simp [before]

/-- Of two keys one comes before the other. -/
theorem before_total {first second : VariantKey} (different : first ≠ second) :
    first.before second = true ∨ second.before first = true := by
  have names : ∀ left right : Name, left ≠ right → left < right ∨ right < left := by
    intro left right apart
    by_cases less : left < right
    · exact .inl less
    · exact .inr (Std.lt_of_le_of_ne (String.not_lt.mp less) (Ne.symm apart))
  cases first <;> cases second <;>
    simp only [before, decide_eq_true_eq, ne_eq, subclass.injEq, phrase.injEq] at different ⊢
  · exact names _ _ different
  · exact .inl trivial
  · exact .inr trivial
  · exact names _ _ different

end VariantKey

namespace Variant

/-- Whether variants stand in strictly increasing order of their keys. -/
def Ascending (variants : List Variant) : Prop :=
  variants.Pairwise fun first second => first.key.before second.key = true

theorem mem_enter {key : VariantKey} {data : Formalization} {variants : List Variant}
    {variant : Variant} (present : variant ∈ enter key data variants) :
    variant = ⟨key, data⟩ ∨ variant ∈ variants := by
  induction variants with
  | nil => exact .inl (List.mem_singleton.mp present)
  | cons first rest ih =>
    simp only [enter] at present
    split at present
    · rcases List.mem_cons.mp present with new | old
      · exact .inl new
      · exact .inr (List.mem_cons_of_mem _ old)
    · split at present
      · exact List.mem_cons.mp present
      · rcases List.mem_cons.mp present with rfl | later
        · exact .inr (List.mem_cons_self ..)
        · exact (ih later).imp id (List.mem_cons_of_mem _)

theorem ascending_enter {key : VariantKey} {data : Formalization} {variants : List Variant}
    (ascending : Ascending variants) : Ascending (enter key data variants) := by
  induction variants with
  | nil => exact List.pairwise_singleton ..
  | cons first rest ih =>
    obtain ⟨below, sorted⟩ := List.pairwise_cons.mp ascending
    simp only [enter]
    split
    · rename_i same
      exact List.pairwise_cons.mpr ⟨fun other present => same ▸ below other present, sorted⟩
    · rename_i different
      split
      · rename_i less
        refine List.pairwise_cons.mpr ⟨fun other present => ?_, ascending⟩
        rcases List.mem_cons.mp present with rfl | later
        · exact less
        · exact VariantKey.before_trans less (below other later)
      · rename_i notLess
        refine List.pairwise_cons.mpr ⟨fun other present => ?_, ih sorted⟩
        rcases mem_enter present with rfl | old
        · exact (VariantKey.before_total different).resolve_right notLess
        · exact below other old

end Variant

/-- A record with the place where it is entered and the kinds that it is entered under. -/
structure Posting where
  referred : Name
  rnum : Rnum
  kind : ReferenceKind
  relationshipKind : RelationshipKind
  key? : Option VariantKey
  data : Formalization

namespace Posting

/-- What a posting makes of what its place holds. -/
def enterInto (posting : Posting) (held : Option Reference) : Reference :=
  (held.getD
    { kind := posting.kind
      relationshipKind := posting.relationshipKind
      data := if posting.key?.isSome then .variants [] else .plain posting.data }).enter
    posting.key? posting.data

end Posting

namespace ReferentialTable

def post (table : ReferentialTable) (posting : Posting) : ReferentialTable :=
  table.record posting.referred posting.rnum posting.kind posting.relationshipKind posting.key?
    posting.data

/-- A posting changes what its own place holds and nothing else. -/
theorem reference?_post (table : ReferentialTable) (posting : Posting) (referred : Name) (rnum : Rnum) :
    (table.post posting).reference? referred rnum =
      if posting.referred = referred ∧ posting.rnum = rnum then
        some (posting.enterInto (table.reference? referred rnum))
      else table.reference? referred rnum := by
  simp only [post, record, reference?, forClass?, Table.get?_insert]
  by_cases place : posting.referred = referred
  · subst place
    simp only [↓reduceIte, Option.bind_some, Table.get?_insertSorted, true_and]
    have held : ∀ number, ((table.classes.get? posting.referred).getD .empty).get? number =
        (table.classes.get? posting.referred).bind (·.get? number) := by
      intro number
      cases table.classes.get? posting.referred <;> rfl
    rw [held, held]
    split
    · rename_i same
      rw [← same]
      rfl
    · rfl
  · simp [place]

/-- After a run of postings each place holds what its own postings made of it. -/
theorem reference?_foldl_post (postings : List Posting) (table : ReferentialTable) (referred : Name)
    (rnum : Rnum) :
    (postings.foldl post table).reference? referred rnum =
      (postings.filter fun posting => posting.referred = referred ∧ posting.rnum = rnum).foldl
        (fun held posting => some (posting.enterInto held)) (table.reference? referred rnum) := by
  induction postings generalizing table with
  | nil => rfl
  | cons posting rest ih =>
    rw [List.foldl_cons, ih, reference?_post, List.filter_cons]
    by_cases here : posting.referred = referred ∧ posting.rnum = rnum
    · simp [here]
    · simp [here]

@[simp] theorem reference?_ofClasses (classNames : List Name) (referred : Name) (rnum : Rnum) :
    (ofClasses classNames).reference? referred rnum = none := by
  unfold reference? forClass? ofClasses
  cases found : (Table.ofList (classNames.map fun className =>
      (className, (Table.empty : ClassReferences)))).get? referred with
  | none => rfl
  | some references =>
    obtain ⟨_, _, same⟩ := List.mem_map.mp (Table.mem_of_get?_ofList found)
    cases same
    rfl

end ReferentialTable

namespace ClassMatches

/-- The records of a class. -/
def postings (relationships : Table Rnum Resolved.Relationship) (found : ClassMatches) :
    List Posting :=
  found.references.flatMap fun (rnum, sides) => sides.map fun side =>
    { referred := side.referred
      rnum
      kind := (SideMatch.kinds sides).1
      relationshipKind := (SideMatch.kinds sides).2
      key? := side.key? relationships found.className rnum (SideMatch.kinds sides).2
      data := found.formalization side }

/-- Entering the records of a class is the run of its postings. -/
theorem enterClass_eq_foldl (relationships : Table Rnum Resolved.Relationship)
    (table : ReferentialTable) (found : ClassMatches) :
    ReferentialTable.enterClass relationships table found =
      (found.postings relationships).foldl ReferentialTable.post table := by
  unfold ReferentialTable.enterClass postings
  rw [List.foldl_flatMap]
  congr
  funext table ⟨rnum, sides⟩
  unfold ReferentialTable.enterMatches
  rw [List.foldl_map]
  rfl

end ClassMatches

/-- The table of a model is the run of the postings of its classes. -/
theorem References.referential_ofMatches (relationships : Table Rnum Resolved.Relationship)
    (classNames : List Name) (found : List ClassMatches) :
    (ofMatches relationships classNames found).referential =
      (found.flatMap (·.postings relationships)).foldl ReferentialTable.post (.ofClasses classNames) := by
  rw [List.foldl_flatMap]
  change found.foldl (ReferentialTable.enterClass relationships) _ = _
  congr
  funext table found
  exact ClassMatches.enterClass_eq_foldl relationships table found

end ClassModel
