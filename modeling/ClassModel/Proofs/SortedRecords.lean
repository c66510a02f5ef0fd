import ClassModel.Proofs.ExplicitClasses

/-! # Records up to the order of their pairs

In which order a record lists its pairs has no meaning. With the pairs of every record in the order of the
referring attributes, classes that match alike enter the same records; and they link the same attributes.
-/

namespace ClassModel

section Sorting

namespace Table

variable {α : Type}

/-- The table with its entries in the order of their keys. -/
def sortKeys (table : Table Name α) : Table Name α where
  entries := table.entries.mergeSort fun left right => left.1 ≤ right.1
  nodup := ((List.mergeSort_perm ..).map _).nodup_iff.mpr table.nodup

theorem same_sortKeys (table : Table Name α) : table.sortKeys.Same table :=
  same_iff_perm.mpr (List.mergeSort_perm ..)

/-- Tables that hold the same are the same with their keys in order. -/
theorem sortKeys_eq_iff {left right : Table Name α} : left.sortKeys = right.sortKeys ↔ left.Same right := by
  constructor
  · intro same key
    rw [← left.same_sortKeys key, same, right.same_sortKeys key]
  · intro same
    have ordered : ∀ table : Table Name α, table.sortKeys.entries.Pairwise fun one two => one.1 ≤ two.1 := by
      intro table
      refine (List.pairwise_mergeSort (fun one two three less more => ?_) (fun one two => ?_) _).imp
        of_decide_eq_true
      · exact decide_eq_true (String.le_trans (of_decide_eq_true less) (of_decide_eq_true more))
      · simpa using String.le_total one.1 two.1
    have listed : left.sortKeys.entries.Perm right.sortKeys.entries :=
      same_iff_perm.mp fun key => by rw [left.same_sortKeys, same, right.same_sortKeys]
    refine Table.ext (listed.eq_of_pairwise (fun one two oneIn twoIn less more => ?_) (ordered left)
      (ordered right))
    exact List.inj_on_of_nodup_map left.sortKeys.nodup oneIn (listed.mem_iff.mpr twoIn)
      (String.le_antisymm less more)

end Table

/-- The record with its pairs in the order of the referring attributes. -/
def Formalization.sortPairs (data : Formalization) : Formalization :=
  { data with attrMap := data.attrMap.sortKeys }

/-- Changes every record. -/
def Reference.mapRecords (change : Formalization → Formalization) (reference : Reference) : Reference :=
  { reference with
    data := match reference.data with
      | .plain data => .plain (change data)
      | .variants variants => .variants (variants.map fun variant => ⟨variant.key, change variant.data⟩) }

def ReferentialTable.mapRecords (change : Formalization → Formalization) (table : ReferentialTable) :
    ReferentialTable :=
  ⟨table.classes.mapValues fun _ references => references.mapValues fun _ => .mapRecords change⟩

/-- The model with the pairs of every record in the order of the referring attributes. -/
def Model.sortPairs (model : Model) : Model :=
  { model with referential := model.referential.mapRecords (·.sortPairs) }

end Sorting

section Entering

variable (change : Formalization → Formalization)

def Posting.mapData (posting : Posting) : Posting := { posting with data := change posting.data }

/-- Records may be changed before or after one is entered. -/
theorem Variant.map_enter (key : VariantKey) (data : Formalization) (variants : List Variant) :
    (enter key data variants).map (fun variant => ⟨variant.key, change variant.data⟩) =
      enter key (change data) (variants.map fun variant => ⟨variant.key, change variant.data⟩) := by
  induction variants with
  | nil => rfl
  | cons variant rest ih =>
    simp only [enter, List.map_cons]
    split
    · rfl
    · split
      · rfl
      · rw [List.map_cons, ih]

theorem Reference.mapRecords_enter (reference : Reference) (key? : Option VariantKey) (data : Formalization) :
    (reference.enter key? data).mapRecords change = (reference.mapRecords change).enter key? (change data) := by
  obtain ⟨kind, relationshipKind, held⟩ := reference
  cases held with
  | plain known => cases key? <;> rfl
  | variants variants =>
    cases key? with
    | none => rfl
    | some key =>
      change Reference.mk kind relationshipKind (.variants _) = ⟨kind, relationshipKind, .variants _⟩
      rw [Variant.map_enter]

namespace ReferentialTable

theorem mapRecords_record (table : ReferentialTable) (referred : Name) (rnum : Rnum) (kind : ReferenceKind)
    (relationshipKind : RelationshipKind) (key? : Option VariantKey) (data : Formalization) :
    (table.record referred rnum kind relationshipKind key? data).mapRecords change =
      (table.mapRecords change).record referred rnum kind relationshipKind key? (change data) := by
  let fresh (data : Formalization) : Reference :=
    { kind, relationshipKind, data := if key?.isSome then .variants [] else .plain data }
  have fetched : ∀ held : Option Reference,
      (held.getD (fresh data)).mapRecords change =
        (held.map (.mapRecords change)).getD (fresh (change data)) := by
    intro held
    cases held with
    | none => cases key? <;> rfl
    | some reference => rfl
  have known : ((table.mapRecords change).classes.get? referred).getD .empty =
      ((table.classes.get? referred).getD .empty).mapValues fun _ => .mapRecords change := by
    rw [mapRecords, Table.get?_mapValues]
    cases table.classes.get? referred <;> rfl
  refine congrArg ReferentialTable.mk ((Table.mapValues_insert ..).trans ?_)
  rw [Table.mapValues_insertSorted, Reference.mapRecords_enter, fetched,
    ← Table.get?_mapValues _ fun _ => Reference.mapRecords change, ← known]
  rfl

theorem mapRecords_post (table : ReferentialTable) (posting : Posting) :
    (table.post posting).mapRecords change = (table.mapRecords change).post (posting.mapData change) :=
  mapRecords_record ..

theorem mapRecords_foldl_post (postings : List Posting) (table : ReferentialTable) :
    (postings.foldl post table).mapRecords change =
      (postings.map (·.mapData change)).foldl post (table.mapRecords change) := by
  induction postings generalizing table with
  | nil => rfl
  | cons posting rest ih => rw [List.foldl_cons, ih, mapRecords_post, List.map_cons, List.foldl_cons]

theorem reference?_mapRecords (table : ReferentialTable) (referred : Name) (rnum : Rnum) :
    (table.mapRecords change).reference? referred rnum =
      (table.reference? referred rnum).map (.mapRecords change) := by
  unfold reference? forClass? mapRecords
  rw [Table.get?_mapValues]
  cases table.classes.get? referred with
  | none => rfl
  | some references => exact Table.get?_mapValues ..

end ReferentialTable

theorem Reference.all_mapRecords (reference : Reference) :
    (reference.mapRecords change).all = reference.all.map change := by
  obtain ⟨kind, relationshipKind, held⟩ := reference
  cases held with
  | plain data => rfl
  | variants variants =>
    change (variants.map _).map _ = (variants.map _).map change
    rw [List.map_map, List.map_map]
    rfl

end Entering

section Matching

namespace SideMatch

variable {left right : SideMatch}

theorem Alike.mem_linksOf_iff (alike : left.Alike right) (className : Name) (rnum : Rnum)
    (link : AttributeLink) :
    link ∈ ClassMatches.linksOf className rnum left ↔ link ∈ ClassMatches.linksOf className rnum right := by
  unfold ClassMatches.linksOf
  rw [alike.side, alike.referred]
  exact ((Table.same_iff_perm.mp alike.assignment).map _).mem_iff

theorem Alike.key?_eq (alike : left.Alike right) (relationships : Table Rnum Resolved.Relationship)
    (className : Name) (rnum : Rnum) (kind : RelationshipKind) :
    left.key? relationships className rnum kind = right.key? relationships className rnum kind := by
  unfold key?
  rw [alike.side]

theorem kinds_of_alike {sides others : List SideMatch} (alike : List.Forall₂ Alike sides others) :
    kinds sides = kinds others := by
  rcases alike with _ | ⟨first, _ | ⟨second, _ | ⟨third, rest⟩⟩⟩
  · rfl
  · simp [kinds, first.side]
  · simp [kinds, first.side, first.referred, second.referred]
  · simp [kinds, first.side]

/-- Where every attribute stands for one member, matches that are alike have the same record. -/
theorem Alike.sortPairs_formalization (alike : left.Alike right) {found other : ClassMatches}
    (className : found.className = other.className) (ignored : found.ignored = other.ignored)
    (single : left.assignment.values.Nodup) :
    (found.formalization left).sortPairs = (other.formalization right).sortPairs := by
  have alsoSingle := alike.assignment.values_perm.nodup_iff.mp single
  have same : (found.formalization left).attrMap.Same (other.formalization right).attrMap := by
    rw [Table.same_iff_perm, found.entries_formalization single, other.entries_formalization alsoSingle,
      ← ignored]
    exact ((Table.same_iff_perm.mp alike.assignment).filter _).map _
  unfold Formalization.sortPairs
  rw [Table.sortKeys_eq_iff.mpr same]
  unfold ClassMatches.formalization
  rw [className, alike.side, alike.group]

end SideMatch

namespace ClassMatches

variable {left right : ClassMatches}

theorem mem_linksOver_iff {results others : List (Rnum × List SideMatch)}
    (alike : List.Forall₂ AlikeOver results others) (className : Name) (link : AttributeLink) :
    (link ∈ results.flatMap fun (rnum, sides) => sides.flatMap (linksOf className rnum)) ↔
      link ∈ others.flatMap fun (rnum, sides) => sides.flatMap (linksOf className rnum) := by
  refine mem_flatMap_iff_of_forall₂ alike ?_ link
  rintro ⟨rnum, sides⟩ ⟨_, others⟩ ⟨rfl, same⟩ link
  exact mem_flatMap_iff_of_forall₂ same (fun _ _ pair => pair.mem_linksOf_iff className rnum) link

theorem Alike.mem_choiceLinks_iff (alike : left.Alike right) (link : AttributeLink) :
    link ∈ left.choiceLinks ↔ link ∈ right.choiceLinks := by
  unfold choiceLinks
  rw [alike.className]
  exact mem_linksOver_iff alike.choices right.className link

theorem Alike.mem_ignoredLinks_iff (alike : left.Alike right) (link : AttributeLink) :
    link ∈ left.ignoredLinks ↔ link ∈ right.ignoredLinks := by
  unfold ignoredLinks referenceLinks
  rw [alike.className, alike.ignored, List.mem_filter, List.mem_filter,
    mem_linksOver_iff alike.references right.className link]

/-- Classes that match alike post the same records, up to the order of their pairs. -/
theorem Alike.map_postings (alike : left.Alike right) (relationships : Table Rnum Resolved.Relationship)
    (single : ∀ rnum sides, (rnum, sides) ∈ left.references → ∀ side ∈ sides,
      side.assignment.values.Nodup) :
    (left.postings relationships).map (·.mapData (·.sortPairs)) =
      (right.postings relationships).map (·.mapData (·.sortPairs)) := by
  unfold postings
  rw [List.map_flatMap, List.map_flatMap, List.flatMap_def, List.flatMap_def, alike.className]
  have pairs : List.Forall₂ (fun entry other => AlikeOver entry other ∧ entry ∈ left.references)
      left.references right.references :=
    forall₂_imp_of_mem alike.references fun entry listed other _ same => ⟨same, listed⟩
  refine congrArg _ (map_eq_of_forall₂ pairs ?_).symm
  rintro ⟨rnum, sides⟩ ⟨_, others⟩ ⟨⟨rfl, same⟩, present⟩
  have sidePairs : List.Forall₂ (fun side other => side.Alike other ∧ side ∈ sides) sides others :=
    forall₂_imp_of_mem same fun side listed other _ pair => ⟨pair, listed⟩
  dsimp only
  rw [List.map_map, List.map_map, SideMatch.kinds_of_alike same]
  refine map_eq_of_forall₂ sidePairs fun side other ⟨pair, listed⟩ => ?_
  have data := pair.sortPairs_formalization alike.className alike.ignored
    (single rnum sides present side listed)
  unfold Posting.mapData
  dsimp only [Function.comp_apply]
  rw [data, pair.referred, pair.key?_eq]

end ClassMatches

/-- References that link the same attributes and hold the same records, up to the order of their pairs. -/
structure References.Alike (left right : References) : Prop where
  referential : left.referential.mapRecords (·.sortPairs) = right.referential.mapRecords (·.sortPairs)
  ignoredLinks : ∀ link, link ∈ left.ignoredLinks ↔ link ∈ right.ignoredLinks
  choiceLinks : ∀ link, link ∈ left.choiceLinks ↔ link ∈ right.choiceLinks

namespace References

/-- Classes that match alike have references that are alike. -/
theorem alike_ofMatches {found others : List ClassMatches}
    (alike : List.Forall₂ ClassMatches.Alike found others)
    (single : ∀ matching ∈ found, ∀ rnum sides, (rnum, sides) ∈ matching.references → ∀ side ∈ sides,
      side.assignment.values.Nodup)
    (relationships : Table Rnum Resolved.Relationship) (classNames : List Name) :
    (ofMatches relationships classNames found).Alike (ofMatches relationships classNames others) := by
  refine ⟨?_, mem_flatMap_iff_of_forall₂ alike fun _ _ pair => pair.mem_ignoredLinks_iff,
    mem_flatMap_iff_of_forall₂ alike fun _ _ pair => pair.mem_choiceLinks_iff⟩
  have pairs : List.Forall₂ (fun matching other => matching.Alike other ∧ matching ∈ found) found others :=
    forall₂_imp_of_mem alike fun matching listed other _ pair => ⟨pair, listed⟩
  rw [referential_ofMatches, referential_ofMatches, ReferentialTable.mapRecords_foldl_post,
    ReferentialTable.mapRecords_foldl_post, List.map_flatMap, List.map_flatMap, List.flatMap_def,
    List.flatMap_def, map_eq_of_forall₂ pairs fun matching other pair =>
      (pair.1.map_postings relationships (single _ pair.2)).symm]

namespace Alike

variable {left right : References} (alike : left.Alike right)

include alike

theorem symm : right.Alike left :=
  ⟨alike.referential.symm, fun link => (alike.ignoredLinks link).symm,
    fun link => (alike.choiceLinks link).symm⟩

theorem linked_of_linked {first second : SlotKey} (linked : left.Linked first second) :
    right.Linked first second := by
  cases linked with
  | @recorded referred rnum reference data attr identifier stored listed mapped =>
    have same := congrArg (·.reference? referred rnum) alike.referential
    rw [ReferentialTable.reference?_mapRecords, ReferentialTable.reference?_mapRecords, stored, Option.map_some,
      eq_comm, Option.map_eq_some_iff] at same
    obtain ⟨other, alsoStored, sorted⟩ := same
    have records := congrArg Reference.all sorted
    rw [Reference.all_mapRecords, Reference.all_mapRecords] at records
    obtain ⟨peer, present, equal⟩ := List.mem_map.mp (records ▸ List.mem_map_of_mem listed)
    have formalizer : peer.formalizer = data.formalizer := congrArg (·.formalizer) equal
    have pairs := Table.sortKeys_eq_iff.mp (congrArg (·.attrMap) equal)
    rw [← formalizer]
    exact .recorded alsoStored present ((pairs attr).trans mapped)
  | ignored listed => exact .ignored ((alike.ignoredLinks _).mp listed)

theorem linked_eq : left.Linked = right.Linked := by
  funext first second
  exact propext ⟨alike.linked_of_linked, alike.symm.linked_of_linked⟩

end Alike

end References

end Matching

end ClassModel
