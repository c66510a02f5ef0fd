import ClassModel.Proofs.AddedRenames
import ClassModel.Proofs.SortedRecords
import ClassModel.Proofs.TypeAgreement

/-! # Making references explicit

What a class refers to over a relationship is found out by names, by the name of the class referred to, and by
force where one attribute is left. Over a relationship where it refers to a single side, all this can be written
out by renames without changing the model.
-/

namespace ClassModel

namespace Analysis

/-- The links of all matches: those that give two attributes one type, and then the choices of types. -/
def links (analysis : Analysis) : List AttributeLink :=
  analysis.references.typeLinks ++ analysis.references.choiceLinks

/-- Whether a rename is in effect for the referring attribute of a link. -/
def isRenamed (analysis : Analysis) (link : AttributeLink) : Bool :=
  ((analysis.classes.get? link.className).bind (·.renameOn? link.rnum link.side link.attr)).isSome

/-- The renames that make explicit what a class refers to over a relationship: an attribute of the class for
which none is in effect is given the name of the identifier attribute that it is matched to. -/
def inferredRenames (analysis : Analysis) (className : Name) (rnum : Rnum) (owner attr : Name) : List Rename :=
  ((analysis.links.find? fun link => owner = className ∧ link.className = owner ∧ link.rnum = rnum ∧
    link.attr = attr ∧ !analysis.isRenamed link).map fun link => ⟨rnum, link.targetAttr⟩).toList

end Analysis

/-- Where a class refers to a single side, no record gives way to another. -/
theorem RefersOnce.not_isOverwritten {relationships : Table Rnum Resolved.Relationship} {className : Name}
    {rnum : Rnum} (once : RefersOnce relationships className rnum) {relationship : Resolved.Relationship}
    (related : relationships.get? rnum = some relationship) (side : Side) :
    relationship.shape.isOverwritten side = false := by
  obtain ⟨other, far, same, single⟩ := once
  rw [related] at same
  cases same
  unfold Resolved.Relationship.farEnds? at single
  split at single
  · split at single <;> simp at single
  · rename_i shaped
    rw [shaped]
    cases side <;> rfl
  · rename_i shaped
    rw [shaped]
    cases side <;> rfl

section Links

variable {classes : Table Name Resolved.Class} {relationships : Table Rnum Resolved.Relationship}
  (sound : WellFormed relationships classes)

include sound

namespace ClassMatches

variable {cls : Resolved.Class} {found : ClassMatches} (matched : ofClass classes relationships cls = .ok found)
  {rnum : Rnum} {sides others : List SideMatch} {side other : SideMatch} {attr : Name}

include matched

/-- An attribute in use over a formalized relationship formalizes it. -/
theorem exists_formalizes (known : classes.get? cls.name = some cls)
    (present : (rnum, sides) ∈ found.references) (listed : side ∈ sides) (inUse : attr ∈ side.assignment.values) :
    ∃ record ∈ cls.allAttributes, record.name = attr ∧ rnum ∈ record.formalizes := by
  obtain ⟨_, attrs, _, complete, owned⟩ := references_complete sound known matched present
  obtain ⟨_, _, _, _, _, values⟩ := complete.of_mem listed
  exact owned attr (values attr inUse)

/-- An attribute in use over the relationship of a choice has the relationship in its choice. -/
theorem exists_chooses (present : (rnum, sides) ∈ found.choices) (listed : side ∈ sides)
    (inUse : attr ∈ side.assignment.values) :
    ∃ record ∈ cls.allAttributes, record.name = attr ∧ rnum ∈ record.unionRelationships := by
  obtain ⟨attrs, _, complete, owned⟩ := choices_complete sound matched present
  obtain ⟨_, _, _, _, _, values⟩ := complete.of_mem listed
  exact owned attr (values attr inUse)

/-- No attribute both formalizes a relationship and has it in its choice. -/
theorem not_formalizes_and_chooses (known : classes.get? cls.name = some cls)
    (distinct : (cls.allAttributes.map (·.name)).Nodup) (present : (rnum, sides) ∈ found.references)
    (listed : side ∈ sides) (inUse : attr ∈ side.assignment.values) (also : (rnum, others) ∈ found.choices)
    (alsoListed : other ∈ others) : attr ∉ other.assignment.values := by
  intro alsoInUse
  obtain ⟨one, oneOwned, oneNamed, formal⟩ := exists_formalizes sound matched known present listed inUse
  obtain ⟨two, twoOwned, twoNamed, chosen⟩ := exists_chooses sound matched also alsoListed alsoInUse
  obtain rfl := List.inj_on_of_nodup_map distinct oneOwned twoOwned (oneNamed.trans twoNamed.symm)
  have plain := (Resolved.Attribute.mem_formalizes_iff.mp formal).1
  simp [Resolved.Attribute.isUnionOver, chosen] at plain

omit sound matched in
/-- A table of attributes is matched once over a relationship. -/
theorem sides_eq_of_matchOver {layout : Layout} {table : Table Rnum (List Name)}
    {results : List (Rnum × List SideMatch)}
    (runs : List.Forall₂ (fun entry result => matchOver classes relationships cls layout entry = .ok result)
      table.entries results) (present : (rnum, sides) ∈ results) (also : (rnum, others) ∈ results) :
    sides = others := by
  obtain ⟨attrs, held, ran⟩ := exists_matchOver runs present
  obtain ⟨_, same, alsoRan⟩ := exists_matchOver runs also
  rw [held] at same
  cases same
  rw [ran] at alsoRan
  exact (Prod.mk.inj (Except.ok.inj alsoRan)).2

/-- An attribute is not matched twice over a relationship. -/
theorem sides_eq_of_shared (known : classes.get? cls.name = some cls)
    (distinct : (cls.allAttributes.map (·.name)).Nodup)
    (present : (rnum, sides) ∈ found.references ∨ (rnum, sides) ∈ found.choices)
    (also : (rnum, others) ∈ found.references ∨ (rnum, others) ∈ found.choices)
    (listed : side ∈ sides) (inUse : attr ∈ side.assignment.values)
    (alsoListed : other ∈ others) (alsoInUse : attr ∈ other.assignment.values) : sides = others := by
  obtain ⟨layout, references, choices, _, refers, chooses, rfl⟩ := ofClass_eq_ok_iff.mp matched
  rcases present with present | present <;> rcases also with also | also
  · exact sides_eq_of_matchOver refers present also
  · exact absurd alsoInUse
      (not_formalizes_and_chooses sound matched known distinct present listed inUse also alsoListed)
  · exact absurd inUse
      (not_formalizes_and_chooses sound matched known distinct also alsoListed alsoInUse present listed)
  · exact sides_eq_of_matchOver chooses present also

/-- Where a class refers to a single side, there is one match. -/
theorem exists_only_match (once : RefersOnce relationships cls.name rnum)
    (present : (rnum, sides) ∈ found.references ∨ (rnum, sides) ∈ found.choices) :
    ∃ only, sides = [only] := by
  obtain ⟨layout, attrs, _, ran⟩ := exists_matchOver_of_ofClass matched present
  obtain ⟨_, _, only, _, _, same, _⟩ := exists_only_side once sound ran
  exact ⟨only, same⟩

end ClassMatches

namespace References

variable {found : List ClassMatches}
  (runs : List.Forall₂ (fun cls found => ClassMatches.ofClass classes relationships cls = .ok found)
    classes.values found)
  {matching : ClassMatches} (listed : matching ∈ found) {rnum : Rnum} {sides : List SideMatch}
  {side : SideMatch}

include runs listed

/-- A link over a relationship is a pair of a match of its class there. -/
theorem exists_pair_of_link {link : AttributeLink}
    (linked : link ∈ (ofMatches relationships classes.keys found).typeLinks ∨
      link ∈ (ofMatches relationships classes.keys found).choiceLinks)
    (ofClass : link.className = matching.className) :
    ∃ sides, ((link.rnum, sides) ∈ matching.references ∨ (link.rnum, sides) ∈ matching.choices) ∧
      ∃ side ∈ sides, link.side = side.side ∧ side.assignment.get? link.targetAttr = some link.attr := by
  obtain ⟨other, member, rnum, sides, present, linked⟩ := exists_of_link sound runs linked
  obtain ⟨side, sideListed, linked⟩ := List.mem_flatMap.mp linked
  obtain ⟨⟨identifier, attr⟩, assigned, rfl⟩ := List.mem_map.mp linked
  obtain rfl := List.inj_on_of_nodup_map (ClassMatches.nodup_classNames sound runs) member listed ofClass
  exact ⟨sides, present, side, sideListed, rfl, Table.get?_eq_some_iff.mpr assigned⟩

/-- Where a class refers to a single side, the record of its match is kept. -/
theorem mem_records_of_once (once : RefersOnce relationships matching.className rnum)
    (present : (rnum, sides) ∈ matching.references) (sideListed : side ∈ sides) :
    (side.referred, rnum, matching.formalization side) ∈
      (ofMatches relationships classes.keys found).referential.records := by
  obtain ⟨cls, known, matched⟩ := exists_class sound runs listed
  obtain ⟨_, _, _, complete, _⟩ := ClassMatches.references_complete sound known matched present
  obtain ⟨relationship, related, offered⟩ := complete.sides
  rw [← ClassMatches.className_of_ofClass matched] at offered
  have records := recordsOf_perm sound runs listed present side.referred side.side
  rw [matching.lasting_side related offered sideListed, if_neg (by simp [once.not_isOverwritten related])]
    at records
  have stored := (List.mem_filter.mp (records.mem_iff.mpr (List.mem_singleton_self _))).1
  exact ReferentialTable.mem_records_iff.mpr (ReferentialTable.mem_recordsAt_iff.mp stored)

/-- Every pair of a match of an only side is linked, be it recorded, ignored or a choice. -/
theorem linked_of_assigned (once : RefersOnce relationships matching.className rnum)
    (present : (rnum, sides) ∈ matching.references ∨ (rnum, sides) ∈ matching.choices)
    (sideListed : side ∈ sides) (single : side.assignment.values.Nodup) {identifier attr : Name}
    (assigned : side.assignment.get? identifier = some attr) :
    ⟨rnum, side.side, matching.className, attr, side.referred, identifier⟩ ∈
      (ofMatches relationships classes.keys found).typeLinks ++
        (ofMatches relationships classes.keys found).choiceLinks := by
  have entry := Table.get?_eq_some_iff.mp assigned
  have pair : (⟨rnum, side.side, matching.className, attr, side.referred, identifier⟩ : AttributeLink) ∈
      sides.flatMap (ClassMatches.linksOf matching.className rnum) :=
    List.mem_flatMap.mpr ⟨side, sideListed, List.mem_map.mpr ⟨_, entry, rfl⟩⟩
  rcases present with present | present
  · refine List.mem_append_left _ ?_
    by_cases ignored : attr ∈ matching.ignored
    · have links : _ ∈ matching.referenceLinks := List.mem_flatMap.mpr ⟨_, present, pair⟩
      exact List.mem_append_right _
        (List.mem_flatMap.mpr ⟨matching, listed, List.mem_filter.mpr ⟨links, by simpa using ignored⟩⟩)
    · have mapped : (attr, identifier) ∈ (matching.formalization side).attrMap.entries := by
        rw [matching.entries_formalization single]
        exact List.mem_map.mpr ⟨_, List.mem_filter.mpr ⟨entry, by simpa using ignored⟩, rfl⟩
      have stored := mem_records_of_once sound runs listed once present sideListed
      exact List.mem_append_left _ (List.mem_flatMap.mpr ⟨_, stored, List.mem_map.mpr ⟨_, mapped, rfl⟩⟩)
  · have links : _ ∈ matching.choiceLinks := List.mem_flatMap.mpr ⟨_, present, pair⟩
    exact List.mem_append_right _ (List.mem_flatMap.mpr ⟨matching, listed, links⟩)

end References

end Links

namespace Analysis

theorem inferredRenames_of_ne (analysis : Analysis) {className owner : Name} (different : owner ≠ className)
    (rnum : Rnum) (attr : Name) : analysis.inferredRenames className rnum owner attr = [] := by
  simp [inferredRenames, different]

/-- An inferred rename is along a link of the class that has no rename in effect. -/
theorem exists_link_of_mem_inferredRenames {analysis : Analysis} {className : Name} {rnum : Rnum}
    {owner attr : Name} {rename : Rename}
    (given : rename ∈ analysis.inferredRenames className rnum owner attr) :
    ∃ link ∈ analysis.links, link.className = className ∧ link.rnum = rnum ∧ link.attr = attr ∧
      analysis.isRenamed link = false ∧ rename = ⟨rnum, link.targetAttr⟩ := by
  obtain ⟨link, first, rfl⟩ := Option.map_eq_some_iff.mp (Option.mem_toList.mp given)
  have fits := List.find?_some first
  simp only [decide_eq_true_eq, Bool.not_eq_eq_eq_not, Bool.not_true] at fits
  obtain ⟨rfl, ofClass, along, ofAttr, plain⟩ := fits
  exact ⟨link, List.mem_of_find?_eq_some first, ofClass, along, ofAttr, plain, rfl⟩

/-- An attribute with such a link is renamed along one. -/
theorem inferredRenames_ne_nil {analysis : Analysis} {className : Name} {rnum : Rnum} {attr : Name}
    {link : AttributeLink} (linked : link ∈ analysis.links) (ofClass : link.className = className)
    (along : link.rnum = rnum) (ofAttr : link.attr = attr) (plain : analysis.isRenamed link = false) :
    ∃ rename, analysis.inferredRenames className rnum className attr = [rename] := by
  unfold inferredRenames
  cases first : analysis.links.find? fun link => className = className ∧ link.className = className ∧
      link.rnum = rnum ∧ link.attr = attr ∧ !analysis.isRenamed link with
  | none =>
    have fits := List.find?_eq_none.mp first link linked
    simp [ofClass, along, ofAttr, plain] at fits
  | some other => exact ⟨_, rfl⟩

theorem nodup_inferredRenames (analysis : Analysis) (className : Name) (rnum : Rnum) (owner attr : Name) :
    ((analysis.inferredRenames className rnum owner attr).map (·.rnum)).Nodup := by
  unfold inferredRenames
  generalize analysis.links.find? _ = first
  cases first <;> simp

section Renaming

variable {analysis : Analysis} (sound : WellFormed analysis.merged.relationships analysis.classes)
  (regular : ∀ name cls, analysis.classes.get? name = some cls → cls.IsRegular) {found : List ClassMatches}
  (runs : List.Forall₂ (fun cls found =>
    ClassMatches.ofClass analysis.classes analysis.merged.relationships cls = .ok found)
    analysis.classes.values found)
  (gathered : References.ofMatches analysis.merged.relationships analysis.classes.keys found =
    analysis.references)
  {cls : Resolved.Class} (known : analysis.classes.get? cls.name = some cls)

include known

theorem isRenamed_eq_false_iff {link : AttributeLink} (ofClass : link.className = cls.name) :
    analysis.isRenamed link = false ↔ cls.renameOn? link.rnum link.side link.attr = none := by
  rw [isRenamed, ofClass, known, Option.bind_some, Option.isSome_eq_false_iff, Option.isNone_iff_eq_none]

include sound regular runs gathered

variable (distinct : (cls.allAttributes.map (·.name)).Nodup) {matching : ClassMatches}
  (listed : matching ∈ found)
  (matched : ClassMatches.ofClass analysis.classes analysis.merged.relationships cls = .ok matching)
  {rnum : Rnum} (once : RefersOnce analysis.merged.relationships cls.name rnum)

include distinct listed matched once

/-- An attribute without a rename is given the name of the member that it stands for. -/
theorem inferredRenames_of_assigned {sides : List SideMatch}
    (present : (rnum, sides) ∈ matching.references ∨ (rnum, sides) ∈ matching.choices) {side : SideMatch}
    (sideListed : side ∈ sides) {identifier attr : Name}
    (assigned : side.assignment.get? identifier = some attr)
    (unnamed : cls.renameOn? rnum side.side attr = none) :
    analysis.inferredRenames cls.name rnum cls.name attr = [⟨rnum, identifier⟩] := by
  have named := ClassMatches.className_of_ofClass matched
  have single := ClassMatches.nodup_assigned sound regular matched present sideListed
  have linked :=
    References.linked_of_assigned sound runs listed (named ▸ once) present sideListed single assigned
  rw [gathered] at linked
  obtain ⟨rename, inferred⟩ := inferredRenames_ne_nil linked named rfl rfl
    ((isRenamed_eq_false_iff known named).mpr unnamed)
  -- the link that the rename is along is of the same match, so that it is for the same member
  obtain ⟨link, member, ofClass, rfl, rfl, _, rfl⟩ :=
    exists_link_of_mem_inferredRenames (inferred ▸ List.mem_singleton_self rename)
  rw [links, ← gathered] at member
  obtain ⟨others, also, other, otherListed, _, alsoAssigned⟩ :=
    References.exists_pair_of_link sound runs listed (List.mem_append.mp member) (ofClass.trans named.symm)
  obtain rfl := ClassMatches.sides_eq_of_shared sound matched known distinct present also sideListed
    (Table.mem_values_of_get? assigned) otherListed (Table.mem_values_of_get? alsoAssigned)
  obtain ⟨only, rfl⟩ := ClassMatches.exists_only_match sound matched once present
  obtain rfl := List.mem_singleton.mp sideListed
  obtain rfl := List.mem_singleton.mp otherListed
  rw [inferred, Table.nodup_values_iff.mp single _ _ _ assigned alsoAssigned]

/-- The inferred renames write out what the class matches. -/
theorem isWrittenOut_inferredRenames :
    matching.IsWrittenOut cls rnum (analysis.inferredRenames cls.name rnum cls.name) := by
  refine ⟨fun attr rename given => ?_, fun attr => nodup_inferredRenames .., fun attr rename given => ?_,
    fun sides present side sideListed identifier attr assigned unnamed => inferredRenames_of_assigned sound
      regular runs gathered known distinct listed matched once present sideListed assigned unnamed⟩
  · obtain ⟨link, _, _, _, _, _, rfl⟩ := exists_link_of_mem_inferredRenames given
    rfl
  · obtain ⟨link, _, ofClass, rfl, rfl, plain, _⟩ := exists_link_of_mem_inferredRenames given
    rw [isRenamed_eq_false_iff known ofClass, Resolved.Class.renameOn?] at plain
    simp only [Option.orElse_eq_orElse, Option.orElse_eq_or, Option.or_eq_none_iff] at plain
    exact plain.2

end Renaming

end Analysis

/-- With the renames that make what a class refers to explicit, the references are alike. -/
theorem References.exists_explicit {input : ModelInput} {options : AnalysisOptions} {analysis : Analysis}
    (success : Analysis.ofInput input options = .ok analysis)
    (apart : ∀ cls ∈ analysis.classes.values,
      (cls.allAttributes.map fun attr => Text.lowercase attr.name).Nodup)
    {className : Name} {rnum : Rnum} (once : RefersOnce analysis.merged.relationships className rnum) :
    ∃ references, ofClasses analysis.merged.relationships
        (analysis.classes.mapValues fun _ => .addRenames (analysis.inferredRenames className rnum)) =
        .ok references ∧ analysis.references.Alike references := by
  obtain ⟨merging, navigating, matched, _⟩ := Analysis.ofInput_eq_ok_iff.mp success
  have sound := (Merged.wellFormed merging).navigate navigating
  have regular : ∀ name cls, analysis.classes.get? name = some cls → cls.IsRegular :=
    fun name cls known =>
      Resolved.Class.isRegular merging navigating known (apart cls (Table.mem_values_of_get? known))
  obtain ⟨found, runs, gathered⟩ := ofClasses_eq_ok_iff.mp matched
  have single : ∀ matching ∈ found, ∀ rnum sides, (rnum, sides) ∈ matching.references → ∀ side ∈ sides,
      side.assignment.values.Nodup := by
    intro matching listed rnum sides present side sideListed
    obtain ⟨cls, _, ran⟩ := exists_class sound runs listed
    exact ClassMatches.nodup_assigned sound regular ran (.inl present) sideListed
  have each : ∀ cls ∈ analysis.classes.values, ∀ matching ∈ found,
      ClassMatches.ofClass analysis.classes analysis.merged.relationships cls = .ok matching →
      ∃ other, ClassMatches.ofClass (analysis.classes.mapValues fun _ =>
          .addRenames (analysis.inferredRenames className rnum)) analysis.merged.relationships
          (cls.addRenames (analysis.inferredRenames className rnum)) = .ok other ∧ matching.Alike other := by
    intro cls owned matching listed ran
    by_cases here : cls.name = className
    · subst here
      obtain ⟨name, known⟩ := Table.mem_values_iff.mp owned
      obtain rfl := sound.className _ _ known
      have distinct : (cls.allAttributes.map (·.name)).Nodup :=
        .of_map Text.lowercase (by rw [List.map_map]; exact apart cls owned)
      exact ClassMatches.ofClass_explicit sound regular once distinct ran
        (Analysis.isWrittenOut_inferredRenames sound regular runs gathered known distinct listed ran once)
    · have plain : ∀ attr, analysis.inferredRenames className rnum cls.name attr = [] :=
        fun attr => analysis.inferredRenames_of_ne here rnum attr
      exact ⟨matching, (ClassMatches.ofClass_addRenames_of_none plain).trans ran, .refl matching⟩
  obtain ⟨others, again, alike⟩ := exists_forall₂_of_forall₂ runs each
  refine ⟨_, ofClasses_eq_ok_iff.mpr ⟨others, ?_, rfl⟩, ?_⟩
  · rw [Table.values_mapValues, List.forall₂_map_left_iff]
    exact again
  · rw [← gathered, Table.keys_mapValues]
    exact alike_ofMatches alike single _ _

namespace Analysis

/-- Further renames with which the references stay alike change nothing but themselves. -/
theorem exists_addRenames {input : ModelInput} {options : AnalysisOptions} {analysis : Analysis}
    (success : ofInput input options = .ok analysis) (added : Name → Name → List Rename)
    {references : References}
    (rematched : References.ofClasses analysis.merged.relationships
      (analysis.classes.mapValues fun _ => .addRenames added) = .ok references)
    (alike : analysis.references.Alike references) :
    ∃ model, analyze (input.addRenames added) options = .ok model ∧
      model.sortPairs = (analysis.model.addRenames added).sortPairs := by
  obtain ⟨merging, navigating, matched, _, typed, tabled, _⟩ := ofInput_eq_ok_iff.mp success
  have sound := (Merged.wellFormed merging).navigate navigating
  have agree : References.Agree analysis.classes (analysis.classes.mapValues fun _ => .addRenames added)
      analysis.references references :=
    ⟨fun key => (slotAttribute?_addRenames added analysis.classes _ (fun _ _ => rfl) key).symm,
      alike.linked_eq, alike.choiceLinks⟩
  have consistent := agree.consistent
    ((Typing.exists_typeTable_iff sound matched).mp ⟨_, _, typed, tabled⟩)
  obtain ⟨other, ran, same⟩ :=
    exists_revise (.addRenames added) success rematched agree.resemble consistent
  refine ⟨other.model, analyze_eq_ok_iff.mpr ⟨other, ran, rfl⟩, ?_⟩
  rw [same]
  unfold Model.sortPairs
  dsimp only
  rw [← alike.referential]
  rfl

/-- Making an inferred reference explicit changes nothing. -/
theorem analyze_inferredRenames {input : ModelInput} {options : AnalysisOptions} {analysis : Analysis}
    (success : ofInput input options = .ok analysis)
    (apart : ∀ cls ∈ analysis.classes.values, (cls.allAttributes.map fun attr => Text.lowercase attr.name).Nodup)
    {className : Name} {rnum : Rnum} (once : RefersOnce analysis.merged.relationships className rnum) :
    ∃ model, analyze (input.addRenames (analysis.inferredRenames className rnum)) options = .ok model ∧
      model.sortPairs = (analysis.model.addRenames (analysis.inferredRenames className rnum)).sortPairs := by
  obtain ⟨references, rematched, alike⟩ := References.exists_explicit success apart once
  exact exists_addRenames success _ rematched alike

end Analysis

namespace Sample

/-- A ticket is for a seat: its row navigates there, and its place is what is left for the number. -/
def theatre : ModelInput :=
  { subsystems := [
      { name := "Theatre"
        classes := [
          { name := "Seat"
            attributes := [
              { name := "Number", scalar := some "Integer", identifiers := [.first] },
              { name := "Row", scalar := some "Letter", identifiers := [.first] }] },
          { name := "Ticket"
            attributes := [
              { name := "Place", relationships := [⟨"R1"⟩] },
              { name := "Row", hints := [{ target := some "Seat" }] }] }]
        relationships := [
          ⟨⟨"R1"⟩, .association ⟨"Ticket", "is for", .many, false⟩
            ⟨"Seat", "is taken by", .one, false⟩ none⟩] }] }

end Sample

namespace Analysis

/-- The place of a ticket is renamed to the number of the seat, and the row to the row. -/
theorem analyze_inferredRenames_theatre : ∃ analysis model,
    ofInput Sample.theatre {} = .ok analysis ∧
    (∀ cls ∈ analysis.classes.values, (cls.allAttributes.map fun attr => Text.lowercase attr.name).Nodup) ∧
    RefersOnce analysis.merged.relationships "Ticket" ⟨"R1"⟩ ∧
    analysis.inferredRenames "Ticket" ⟨"R1"⟩ "Ticket" "Place" = [⟨⟨"R1"⟩, "Number"⟩] ∧
    analysis.inferredRenames "Ticket" ⟨"R1"⟩ "Ticket" "Row" = [⟨⟨"R1"⟩, "Row"⟩] ∧
    analyze (Sample.theatre.addRenames (analysis.inferredRenames "Ticket" ⟨"R1"⟩)) {} = .ok model ∧
    model.sortPairs = (analysis.model.addRenames (analysis.inferredRenames "Ticket" ⟨"R1"⟩)).sortPairs := by
  have ran : ((ofInput Sample.theatre {}).toOption.bind fun analysis =>
      (analysis.merged.relationships.get? ⟨"R1"⟩).map fun relationship =>
        (decide (∀ cls ∈ analysis.classes.values,
          (cls.allAttributes.map fun attr => Text.lowercase attr.name).Nodup), relationship.farEnds? "Ticket",
        decide (analysis.inferredRenames "Ticket" ⟨"R1"⟩ "Ticket" "Place" = [⟨⟨"R1"⟩, "Number"⟩] ∧
          analysis.inferredRenames "Ticket" ⟨"R1"⟩ "Ticket" "Row" = [⟨⟨"R1"⟩, "Row"⟩]))) =
      some (true, some [(.active, "Seat")], true) := by
    decide +kernel
  simp only [Option.bind_eq_some_iff, Option.map_eq_some_iff, toOption_eq_some_iff, Prod.mk.injEq,
    decide_eq_true_eq] at ran
  obtain ⟨analysis, success, relationship, related, apart, single, place, row⟩ := ran
  have once : RefersOnce analysis.merged.relationships "Ticket" ⟨"R1"⟩ := ⟨relationship, _, related, single⟩
  obtain ⟨model, again, same⟩ := analyze_inferredRenames success apart once
  exact ⟨analysis, model, success, apart, once, place, row, again, same⟩

end Analysis

end ClassModel
