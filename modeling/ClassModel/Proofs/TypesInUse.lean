import ClassModel.Proofs.DeclaredTypes

/-! # The types in use

The type table of a model lists the types of its attributes in the order of first use: every scalar that
is such a type or a member of one, and the member lists of the unions among them. The table is filled
attribute by attribute. After each, the two lists are those of the attributes gone through, with
repeats left out, whatever alias comes with a union and whenever it comes.
-/

namespace ClassModel

namespace AttributeType

/-- The members of a type that is a union. -/
def members? : AttributeType → Option (List Name)
  | .scalar _ => none
  | .union members => some members

end AttributeType

/-- The types of the attributes of a model, regular before ignored, in the order of the classes. -/
def Model.typesInUse (model : Model) : List AttributeType :=
  model.classes.values.flatMap fun cls => cls.allAttributes.filterMap (·.type)

namespace TypeTable

/-- A table that lists types in the order in which they come, each once. -/
structure Lists (types : List AttributeType) (table : TypeTable) : Prop where
  scalars : table.scalars = (types.flatMap (·.names)).eraseDups
  unions : table.unions.map (·.members) = (types.filterMap (·.members?)).eraseDups

theorem scalars_addScalar {table : TypeTable} {names : List Name} (listed : table.scalars = names.eraseDups)
    (name : Name) : (table.addScalar name).scalars = (names ++ [name]).eraseDups := by
  rw [eraseDups_concat, ← listed]
  have known : table.containsScalar name = true ↔ name ∈ names := by
    rw [containsScalar, List.contains_iff_mem, listed, List.mem_eraseDups]
  unfold addScalar
  simp only [known]
  split <;> rfl

theorem scalars_foldl_addScalar {table : TypeTable} {names : List Name}
    (listed : table.scalars = names.eraseDups) (more : List Name) :
    (more.foldl addScalar table).scalars = (names ++ more).eraseDups := by
  induction more generalizing table names with
  | nil => rw [List.foldl_nil, List.append_nil, listed]
  | cons name rest ih =>
    rw [List.foldl_cons, ih (scalars_addScalar listed name), List.append_assoc, List.singleton_append]

theorem lists_start : Lists [] {} := ⟨rfl, rfl⟩

/-- Entering a type lists it after those before it. -/
theorem Lists.enterType {types : List AttributeType} {table next : TypeTable} (lists : table.Lists types)
    {resolution : TypeResolution} (entered : Typing.enterType table resolution = .ok next) :
    next.Lists (types ++ [resolution.type]) := by
  unfold Typing.enterType at entered
  split at entered
  · rename_i only typed
    cases entered
    constructor
    · rw [List.flatMap_append, List.flatMap_singleton, typed]
      exact scalars_addScalar lists.scalars only
    · rw [unions_addScalar, lists.unions, List.filterMap_append, typed]
      simp [AttributeType.members?]
  · rename_i members typed
    rw [mapError_eq_ok_iff, addUnion, map_eq_ok_iff] at entered
    obtain ⟨unions, added, rfl⟩ := entered
    constructor
    · rw [List.flatMap_append, List.flatMap_singleton, typed]
      exact scalars_foldl_addScalar lists.scalars members
    · rw [map_members_of_enterUnion added, lists.unions, List.filterMap_append, typed]
      simp only [List.mem_eraseDups]
      exact (eraseDups_concat (types.filterMap (·.members?)) members).symm

end TypeTable

/-- The table of the types in use lists them. -/
theorem Typing.lists_typeTable {typing : Typing} {classes : List Resolved.Class} {types : TypeTable}
    (tabled : typing.typeTable classes = .ok types) : types.Lists ((typing.uses classes).map (·.type)) := by
  have start : ({} : TypeTable).Lists (([] : List TypeResolution).map (·.type)) := TypeTable.lists_start
  refine foldlM_tracks (fun done table => table.Lists (done.map (·.type))) tabled start ?_
  intro done use table next lists entered
  rw [List.map_append, List.map_singleton]
  exact lists.enterType entered

/-- A union has at least two members, in ascending order. -/
theorem AttributeType.members_of_ofSet {closed : NameSet} (inhabited : ∃ name, name ∈ closed)
    {members : List Name} (union : ofSet closed = .union members) :
    2 ≤ members.length ∧ members.Pairwise (· < ·) := by
  have typed : (TypeResolution.ofSet closed none).type = .union members := union
  obtain ⟨several, rfl, _⟩ := TypeResolution.ofSet_type_eq_union typed
  refine ⟨?_, closed.ascending⟩
  by_contra few
  obtain ⟨name, present⟩ := inhabited
  exact several name (NameSet.toList_eq_singleton (Nat.le_of_lt_succ (Nat.not_le.mp few)) present)

section Annotating

variable {classes : Table Name Resolved.Class} {references : References} {typing : Typing}
  (fits : typing.Fits classes references)
  (named : ∀ name cls, classes.get? name = some cls → cls.name = name)

include fits named

/-- The types of the attributes of the annotated classes are those in use. -/
theorem Typing.Fits.map_type_uses : (typing.uses classes.values).map (·.type) =
    classes.values.flatMap fun cls => (typing.annotate cls).allAttributes.filterMap (·.type) := by
  rw [uses, List.map_flatMap]
  refine List.flatMap_congr fun cls present => ?_
  rw [annotate_eq, Resolved.Class.allAttributes_mapAttributes, List.filterMap_map, List.map_filterMap]
  refine List.filterMap_congr fun attr owned => ?_
  obtain ⟨name, known⟩ := Table.mem_values_iff.mp present
  obtain rfl := named name cls known
  obtain ⟨_, _, _, _, _, found⟩ := fits (cls.name, attr.name)
    (isSome_slotAttribute?_iff.mpr ⟨cls, known, attr, owned, rfl⟩)
  dsimp only [Function.comp_apply] at found ⊢
  rw [found, Option.map_some, Option.some_or]

/-- A union is in use under a name exactly if the name is declared for an annotated attribute of that type. -/
theorem Typing.Fits.exists_use_iff {members : List Name} {name : Name} :
    (∃ use ∈ typing.uses classes.values, use.type = .union members ∧ use.aliasName = some name) ↔
      ∃ className cls, classes.get? className = some cls ∧ ∃ attr ∈ (typing.annotate cls).allAttributes,
        attr.type = some (.union members) ∧
          references.DeclaresScalar classes (className, attr.name) name := by
  constructor
  · rintro ⟨use, used, typed, aliased⟩
    obtain ⟨⟨className, _⟩, counts, found⟩ := (mem_uses_iff named).mp used
    obtain ⟨cls, known, attr, owned, rfl⟩ := isSome_slotAttribute?_iff.mp counts
    obtain ⟨closed, scalar, _, _, declared, resolved⟩ := fits _ counts
    obtain rfl := Option.some_inj.mp (found.symm.trans resolved)
    obtain ⟨_, _, same⟩ := TypeResolution.ofSet_type_eq_union typed
    obtain rfl := named className cls known
    refine ⟨cls.name, cls, known, _, mem_allAttributes_annotate_iff.mpr ⟨attr, owned, rfl⟩, ?_,
      (declared name).mp (same.symm.trans aliased)⟩
    dsimp only at resolved ⊢
    rw [resolved, Option.map_some, Option.some_or, typed]
  · rintro ⟨className, cls, known, _, annotated, typed, declares⟩
    obtain ⟨attr, owned, rfl⟩ := mem_allAttributes_annotate_iff.mp annotated
    obtain rfl := named className cls known
    have counts : (slotAttribute? classes (cls.name, attr.name)).isSome = true :=
      isSome_slotAttribute?_iff.mpr ⟨cls, known, attr, owned, rfl⟩
    obtain ⟨closed, scalar, _, _, declared, resolved⟩ := fits _ counts
    dsimp only at resolved typed
    rw [resolved, Option.map_some, Option.some_or, Option.some_inj] at typed
    obtain ⟨_, _, same⟩ := TypeResolution.ofSet_type_eq_union typed
    exact ⟨_, (mem_uses_iff named).mpr ⟨_, counts, resolved⟩, typed,
      same.trans ((declared name).mpr declares)⟩

end Annotating

namespace Analysis

/-- Whether a name is declared as the scalar of an attribute whose type is a union with the given members, or
of one that equals it. -/
def NamesUnion (analysis : Analysis) (members : List Name) (name : Name) : Prop :=
  ∃ className cls, analysis.model.classes.get? className = some cls ∧ ∃ attr ∈ cls.allAttributes,
    attr.type = some (.union members) ∧
      analysis.references.DeclaresScalar analysis.classes (className, attr.name) name

/-- The type table of a model holds the types of its attributes and nothing else, in the order of first use:
the scalars, be it as members, and the unions, each with two members or more in ascending order and with
the one scalar as its alias that is declared for attributes of its type. -/
theorem types_tabled {input : ModelInput} {options : AnalysisOptions} {analysis : Analysis}
    (ran : ofInput input options = .ok analysis) :
    analysis.model.types.scalars = (analysis.model.typesInUse.flatMap (·.names)).eraseDups ∧
    analysis.model.types.scalars.Nodup ∧
    analysis.model.types.unions.map (·.members) =
      (analysis.model.typesInUse.filterMap (·.members?)).eraseDups ∧
    (analysis.model.types.unions.map (·.members)).Nodup ∧
    ∀ union ∈ analysis.model.types.unions,
      2 ≤ union.members.length ∧ union.members.Pairwise (· < ·) ∧
      (∀ name, union.aliasName = some name ↔ analysis.NamesUnion union.members name) ∧
      ∀ first second, analysis.NamesUnion union.members first → analysis.NamesUnion union.members second →
        first = second := by
  obtain ⟨merging, navigating, matched, _, typed, tabled, _⟩ := ofInput_eq_ok_iff.mp ran
  have sound := (Merged.wellFormed merging).navigate navigating
  have fits := (Typing.settles sound matched typed).fits
  have records := Typing.typeTable_spec.2 _ tabled
  have used : (analysis.typing.uses analysis.classes.values).map (·.type) = analysis.model.typesInUse := by
    rw [fits.map_type_uses sound.className, Model.typesInUse, model, Table.values_mapValues, List.flatMap_map]
  have lists : analysis.model.types.Lists analysis.model.typesInUse := used ▸ Typing.lists_typeTable tabled
  have named : ∀ union ∈ analysis.model.types.unions, ∀ name,
      union.aliasName = some name ↔ analysis.NamesUnion union.members name := by
    intro union present name
    rw [records.aliases union present, fits.exists_use_iff sound.className]
    simp only [NamesUnion, get?_classes_model]
    constructor
    · rintro ⟨className, cls, known, rest⟩
      exact ⟨className, _, ⟨cls, known, rfl⟩, rest⟩
    · rintro ⟨className, _, ⟨cls, known, rfl⟩, rest⟩
      exact ⟨className, cls, known, rest⟩
  refine ⟨lists.scalars, lists.scalars ▸ nodup_eraseDups _, lists.unions, records.distinct,
    fun union present => ?_⟩
  obtain ⟨use, listed, several⟩ := (records.unions _).mp (List.mem_map_of_mem present)
  obtain ⟨key, counts, found⟩ := (Typing.mem_uses_iff sound.className).mp listed
  obtain ⟨closed, scalar, inhabited, _, _, resolved⟩ := fits key counts
  obtain rfl := Option.some_inj.mp (found.symm.trans resolved)
  obtain ⟨two, ascending⟩ := AttributeType.members_of_ofSet inhabited several
  refine ⟨two, ascending, named union present, fun first second one other => ?_⟩
  have same := ((named union present first).mpr one).symm.trans ((named union present second).mpr other)
  exact Option.some_inj.mp same

end Analysis

namespace Sample

/-- Items with a stamp that is a number or a text, a code that is so by a name of its own, and a weight. -/
def stampedItems : ModelInput :=
  items [
    { name := "Stamp", union := some ["Text", "Number"] },
    { name := "Code", scalar := some "Label", union := some ["Number", "Text"] },
    { name := "Weight", scalar := some "Mass" }]

end Sample

namespace Analysis

/-- The union is entered for the stamp and gets its name from the code. -/
theorem types_tabled_stampedItems : ∃ analysis union, ofInput Sample.stampedItems {} = .ok analysis ∧
    analysis.model.typesInUse =
      [.union ["Number", "Text"], .union ["Number", "Text"], .scalar "Mass"] ∧
    analysis.model.types.scalars = ["Number", "Text", "Mass"] ∧
    union ∈ analysis.model.types.unions ∧ union.members = ["Number", "Text"] ∧
    analysis.NamesUnion union.members "Label" := by
  have ran : ((ofInput Sample.stampedItems {}).toOption.bind fun analysis =>
      analysis.model.types.unions.head?.map fun union =>
        (analysis.model.typesInUse, union)) =
      some ([.union ["Number", "Text"], .union ["Number", "Text"], .scalar "Mass"],
        ⟨["Number", "Text"], some "Label"⟩) := by
    decide +kernel
  simp only [Option.bind_eq_some_iff, Option.map_eq_some_iff, toOption_eq_some_iff, Prod.mk.injEq] at ran
  obtain ⟨analysis, success, union, first, uses, rfl⟩ := ran
  obtain ⟨scalars, _, _, _, unions⟩ := types_tabled success
  have present := List.mem_of_mem_head? first
  obtain ⟨_, _, aliases, _⟩ := unions _ present
  refine ⟨analysis, _, success, uses, ?_, present, rfl, (aliases "Label").mp rfl⟩
  rw [scalars, uses]
  decide

end Analysis

end ClassModel
