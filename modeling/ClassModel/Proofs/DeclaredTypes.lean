import ClassModel.Proofs.Consistency
import ClassModel.Proofs.Recording

/-! # Declared types

What an attribute declares is the type that it gets: its member list, or its scalar, be it as the alias
of a union. Of several records of one name in a class the first one declares for all.
-/

namespace ClassModel

section Settled

variable {classes : Table Name Resolved.Class} {references : References}

/-- An attribute of a consistent model has the scalar that it declares, or a union that goes by it. -/
theorem References.Consistent.scalar_honoured (consistent : references.Consistent classes)
    {types : TypeTable} (tabled : references.Tabled classes types) {key : SlotKey} {closed : NameSet}
    (counts : (slotAttribute? classes key).isSome = true) (inhabited : ∃ name, name ∈ closed)
    (closure : ∀ name, name ∈ closed ↔ references.Closure classes key name) {scalar : Name}
    (declares : references.DeclaresScalar classes key scalar) :
    AttributeType.ofSet closed = .scalar scalar ∨
      ∃ union, AttributeType.ofSet closed = .union union.members ∧
        types.union? union.members = some union ∧ union.aliasName = some scalar := by
  by_cases single : ∃ only, closed.toList = [only]
  · obtain ⟨only, single⟩ := single
    refine .inl ?_
    rw [AttributeType.ofSet_of_single single]
    refine congrArg _ (consistent.single key only (fun name => ?_) scalar declares).symm
    rw [← closure, NameSet.toList_eq_singleton_iff.mp single]
  · have several : ∀ only, closed.toList ≠ [only] := not_exists.mp single
    refine .inr ⟨⟨closed.toList, some scalar⟩, AttributeType.ofSet_of_several several, ?_, rfl⟩
    have two := (NameSet.exists_two_iff inhabited).mp several
    refine find?_eq_of_nodup_map tabled.distinct
      ((tabled.unions _).mpr ⟨key, closed, counts, closure, two, rfl, fun name => ?_⟩) rfl
    constructor
    · rintro ⟨⟩
      exact ⟨key, fun _ => Iff.rfl, declares⟩
    · rintro ⟨other, same, declared⟩
      obtain ⟨first, second, left, right, different⟩ := two
      rw [consistent.aliases key other (fun name => (same name).symm)
        ⟨first, second, (closure first).mp left, (closure second).mp right, different⟩ scalar name declares
        declared]

/-- An attribute of a consistent model has the members that it declares, if there are any. -/
theorem References.Consistent.union_honoured (consistent : references.Consistent classes) {key : SlotKey}
    {closed : NameSet} (closure : ∀ name, name ∈ closed ↔ references.Closure classes key name)
    {members : List Name} (given : members ≠ [])
    (declares : references.DeclaresUnion classes key (.ofList members)) : closed = .ofList members := by
  refine NameSet.ext fun name => ?_
  rw [closure, consistent.listed key _ declares]
  obtain ⟨first, listed⟩ := List.exists_mem_of_ne_nil members given
  exact NameSet.isEmpty_eq_false_iff.mpr ⟨first, NameSet.mem_ofList.mpr listed⟩

/-- An attribute of a consistent model resolves to what the record that counts for it declares. -/
theorem Typing.Fits.declared {typing : Typing} (fits : typing.Fits classes references)
    (consistent : references.Consistent classes) {types : TypeTable}
    (tabled : references.Tabled classes types) {key : SlotKey} {attr : Resolved.Attribute} (counts : slotAttribute? classes key = some attr) :
    ∃ closed scalar, typing.resolution? key.1 key.2 = some (.ofSet closed scalar) ∧
      (∀ scalar, attr.scalar = some scalar → AttributeType.ofSet closed = .scalar scalar ∨
        ∃ union, AttributeType.ofSet closed = .union union.members ∧
          types.union? union.members = some union ∧ union.aliasName = some scalar) ∧
      ∀ members, attr.union = some members → members ≠ [] → closed = .ofList members := by
  have isSlot := Option.isSome_iff_exists.mpr ⟨attr, counts⟩
  obtain ⟨closed, scalar, inhabited, closure, _, resolved⟩ := fits key isSlot
  refine ⟨closed, scalar, resolved, fun scalar declared => ?_, fun members declared given => ?_⟩
  · exact consistent.scalar_honoured tabled isSlot inhabited closure ⟨key, attr, .refl _, counts, declared⟩
  · exact consistent.union_honoured closure given
      ⟨key, attr, .refl _, counts, congrArg (Option.map NameSet.ofList) declared⟩

end Settled

/-- Annotating finds an attribute by its name as the class does. -/
theorem Typing.attribute?_annotate (typing : Typing) (cls : Resolved.Class) (name : Name) :
    (typing.annotate cls).attribute? name = (cls.attribute? name).map fun attr => { attr with
      type := ((typing.resolution? cls.name attr.name).map (·.type)).or attr.type } := by
  rw [annotate_eq, Resolved.Class.attribute?, Resolved.Class.allAttributes_mapAttributes, List.find?_map]
  rfl

namespace Model

/-- Every attribute has the type that the first record of its name in its class declares: the scalar, or
a union with the scalar as its alias; and the members in ascending order without repeats, if there are
any. -/
theorem declared_types_honoured {input : ModelInput} {options : AnalysisOptions} {model : Model}
    (success : analyze input options = .ok model) {className : Name} {cls : Resolved.Class}
    (known : model.classes.get? className = some cls) {attr : Resolved.Attribute}
    (owned : attr ∈ cls.allAttributes) :
    ∃ first, cls.attribute? attr.name = some first ∧ attr.type = first.type ∧
      (∀ scalar, first.scalar = some scalar → first.type = some (.scalar scalar) ∨
        ∃ union, first.type = some (.union union.members) ∧
          model.types.union? union.members = some union ∧ union.aliasName = some scalar) ∧
      ∀ members, first.union = some members → members ≠ [] →
        first.type = some (.ofSet (.ofList members)) := by
  obtain ⟨analysis, ran, rfl⟩ := analyze_eq_ok_iff.mp success
  obtain ⟨merging, navigating, matched, _, typed, table, _⟩ := Analysis.ofInput_eq_ok_iff.mp ran
  have sound := (Merged.wellFormed merging).navigate navigating
  obtain ⟨original, found, rfl⟩ := Analysis.get?_classes_model.mp known
  obtain rfl := sound.className _ _ found
  have settles := Typing.settles sound matched typed
  have consistent := (Typing.exists_typeTable_iff sound matched).mp ⟨_, _, typed, table⟩
  have tabled := settles.fits.tabled sound.className (fun key name => settles.divides.isSome_of_declared)
    (Typing.typeTable_spec.2 _ table)
  obtain ⟨record, listed, rfl⟩ := Typing.mem_allAttributes_annotate_iff.mp owned
  obtain ⟨first, declaring⟩ := Option.isSome_iff_exists.mp
    (Resolved.Class.isSome_attribute?_iff.mpr ⟨record, listed, rfl⟩)
  have named : first.name = record.name := by simpa using List.find?_some declaring
  have slot : slotAttribute? analysis.classes (original.name, record.name) = some first := by
    rw [slotAttribute?, found, Option.bind_some, declaring]
  obtain ⟨closed, scalar, resolved, scalars, unions⟩ := settles.fits.declared consistent tabled slot
  have typed : ∀ type, ((analysis.typing.resolution? original.name record.name).map (·.type)).or type =
      some (AttributeType.ofSet closed) := by
    intro type
    rw [resolved, Option.map_some, Option.some_or]
    rfl
  refine ⟨{ first with type := some (.ofSet closed) }, ?_, typed _, fun scalar declared => ?_,
    fun members declared given => ?_⟩
  · rw [Typing.attribute?_annotate, declaring, Option.map_some, named, typed]
  · simp only [Option.some_inj]
    exact scalars scalar declared
  · rw [unions members declared given]

end Model

namespace Sample

/-- A class of items with some attributes. -/
def items (attributes : List Declaration.Attribute) : ModelInput :=
  { subsystems := [{ name := "Stock", classes := [{ name := "Item", attributes }] }] }

/-- The code of an item is a number or a text, by a name of its own. -/
def codedItems : ModelInput :=
  items [{ name := "Code", scalar := some "Label", union := some ["Text", "Number", "Text"] }]

/-- The code of an item is declared twice. -/
def twiceCodedItems : ModelInput :=
  items [{ name := "Code", scalar := some "Number" }, { name := "Code", scalar := some "Text" }]

end Sample

namespace Model

/-- The code of an item has both its members, and the union goes by the declared name. -/
theorem declared_types_honoured_codedItems : ∃ model cls attr,
    analyze Sample.codedItems = .ok model ∧ model.classes.get? "Item" = some cls ∧
    attr ∈ cls.allAttributes ∧ attr.type = some (.union ["Number", "Text"]) ∧
    ∃ first, cls.attribute? attr.name = some first ∧ attr.type = first.type ∧
      (first.type = some (.scalar "Label") ∨ ∃ union, first.type = some (.union union.members) ∧
        model.types.union? union.members = some union ∧ union.aliasName = some "Label") := by
  have ran : ((analyze Sample.codedItems).toOption.bind fun model =>
      (model.classes.get? "Item").bind fun cls =>
      cls.allAttributes.head?.map fun attr =>
        (attr.type, (cls.attribute? attr.name).bind (·.scalar))) =
      some (some (.union ["Number", "Text"]), some "Label") := by
    decide +kernel
  simp only [Option.bind_eq_some_iff, Option.map_eq_some_iff, toOption_eq_some_iff, Prod.mk.injEq] at ran
  obtain ⟨model, success, cls, known, attr, listed, type, declaring, found, declared⟩ := ran
  have owned := List.mem_of_mem_head? listed
  obtain ⟨first, same, alike, scalars, _⟩ := declared_types_honoured success known owned
  rw [found] at same
  cases same
  exact ⟨model, cls, attr, success, known, owned, type, declaring, found, alike, scalars "Label" declared⟩

/-- The second record of the code declares a text and gets the number that the first one declares. -/
theorem declared_type_overruled_twiceCodedItems : ∃ model cls attr,
    analyze Sample.twiceCodedItems = .ok model ∧ model.classes.get? "Item" = some cls ∧
    attr ∈ cls.allAttributes ∧ attr.scalar = some "Text" ∧ attr.type = some (.scalar "Number") := by
  have ran : ((analyze Sample.twiceCodedItems).toOption.bind fun model =>
      (model.classes.get? "Item").bind fun cls =>
      cls.allAttributes.getLast?.map fun attr => (attr.scalar, attr.type)) =
      some (some "Text", some (.scalar "Number")) := by
    decide +kernel
  simp only [Option.bind_eq_some_iff, Option.map_eq_some_iff, toOption_eq_some_iff, Prod.mk.injEq] at ran
  obtain ⟨model, success, cls, known, attr, last, declared, type⟩ := ran
  exact ⟨model, cls, attr, success, known, List.mem_of_mem_getLast? last, declared, type⟩

end Model

end ClassModel
