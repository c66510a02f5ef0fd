import ClassModel.Proofs.DocumentTrees

/-! # The fields of a written record

A record is written as a table of its fields and read by their names. If each name of a schema leads to
its own field (`Schema.Clear`), and the written names stand in the order of the schema
(`Schema.InOrder`), then looking a field up in what was read is looking it up in what was written.
Names that the schema does not know are passed over, and an open record hands them on to a further part.
-/

namespace ClassModel.Document

namespace Schema

/-- Every field of a schema is found by its name, and no two have one name. -/
def Clear (schema : List FieldName) : Prop :=
  (schema.map (·.name)).Nodup ∧ ∀ field ∈ schema, schema.find? (·.goesBy field.name) = some field

instance (schema : List FieldName) : Decidable (Clear schema) := inferInstanceAs (Decidable (_ ∧ _))

/-- The fields of a record have some of the names, in their order. -/
def InOrder (names : List String) (fields : List (String × Value)) : Prop :=
  (fields.map (·.1)).Sublist names

namespace InOrder

variable {names others : List String} {fields further : List (String × Value)}

theorem cons {name : String} {value : Value} (listed : InOrder names fields) :
    InOrder (name :: names) ((name, value) :: fields) :=
  List.Sublist.cons_cons name listed

theorem nil : InOrder [] [] := List.Sublist.slnil

theorem append (front : InOrder names fields) (back : InOrder others further) :
    InOrder (names ++ others) (fields ++ further) := by
  rw [InOrder, List.map_append]
  exact List.Sublist.append front back

theorem field? (name : String) (value : Option Value) : InOrder [name] (Value.field? name value) := by
  cases value with
  | none => exact List.nil_sublist _
  | some value => exact List.Sublist.refl _

theorem listField (name : String) (items : List Value) : InOrder [name] (Value.listField name items) := by
  cases items with
  | nil => exact List.nil_sublist _
  | cons item rest => exact List.Sublist.refl _

end InOrder

/-- A listed name leads to the field of that name. -/
theorem Clear.exists_find? {schema : List FieldName} (clear : Clear schema)
    {fields : List (String × Value)} (listed : InOrder (schema.map (·.name)) fields)
    {field : String × Value} (member : field ∈ fields) :
    ∃ found, schema.find? (·.goesBy field.1) = some found ∧ found.name = field.1 := by
  obtain ⟨found, known, same⟩ := List.mem_map.mp (listed.subset (List.mem_map_of_mem member))
  exact ⟨found, same ▸ clear.2 found known, same⟩

end Schema

namespace FieldName

@[simp] theorem ofKey?_textTree (format : Format) (schema : List FieldName) (name : String) :
    ofKey? schema (format.textTree name) = some (schema.find? (·.goesBy name)) := by
  have text : ∀ tree : Tree, tree.text? = some name →
      ofKey? schema tree = some (schema.find? (·.goesBy name)) := by
    intro tree found
    cases tree <;> simp_all [ofKey?, Tree.text?]
  exact text _ (Tree.text?_textTree format name)

end FieldName

namespace Fields

open Schema

variable {format : Format} {schema : List FieldName} {fields : List (String × Value)}

/-- The fields that are found of a record written as a table. -/
def ofRecord (format : Format) (fields : List (String × Value)) : Fields :=
  ⟨fields.map fun field => (field.1, field.2.treeIn format), false⟩

@[simp] theorem find?_ofRecord (name : String) :
    (ofRecord format fields).find? name = (fields.lookup name).map (·.treeIn format) := by
  rw [find?, ofRecord]
  induction fields with
  | nil => rfl
  | cons field rest ih =>
    rw [List.map_cons, List.lookup_cons, List.lookup_cons, ih]
    cases name == field.1 <;> rfl

/-- The next listed field was not found yet and is added. -/
theorem add?_next (format : Format) (clear : Clear schema) {name : String} {value : Value} {rest : List (String × Value)}
    (listed : InOrder (schema.map (·.name)) (fields ++ (name, value) :: rest)) :
    ∃ field, schema.find? (·.goesBy name) = some field ∧
      (ofRecord format fields).add? field (value.treeIn format) =
        some (ofRecord format (fields ++ [(name, value)])) := by
  have member : (name, value) ∈ fields ++ (name, value) :: rest := by simp
  obtain ⟨field, leads, rfl⟩ := clear.exists_find? listed member
  have distinct := listed.nodup clear.1
  rw [List.map_append, List.map_cons, List.nodup_append] at distinct
  have absent : fields.lookup field.name = none := by
    rw [List.lookup_eq_none_iff]
    intro entry member
    have other := distinct.2.2 _ (List.mem_map_of_mem member) _ List.mem_cons_self
    simpa using other.symm
  refine ⟨field, leads, ?_⟩
  rw [add?, find?_ofRecord, absent]
  simp [ofRecord]

/-- Listed fields are found one after the other. -/
theorem foldlM_enter?_listed (format : Format) (fields further : List (String × Value))
    (clear : Clear schema) (listed : InOrder (schema.map (·.name)) (fields ++ further)) :
    (Value.fieldTrees format further).foldlM (enter? schema) (ofRecord format fields) =
      some (ofRecord format (fields ++ further)) := by
  induction further generalizing fields with
  | nil => simp [Value.fieldTrees]
  | cons field rest ih =>
    obtain ⟨found, leads, added⟩ := add?_next format clear listed
    have entered := ih (fields ++ [field]) (by simpa using listed)
    rw [Value.fieldTrees, List.foldlM_cons, enter?, FieldName.ofKey?_textTree, leads]
    simpa [added] using entered

/-- Fields that the schema does not know are passed over. -/
theorem foldlM_enter?_foreign (format : Format) {names : List String} (listed : InOrder names fields)
    (foreign : ∀ name ∈ names, schema.find? (·.goesBy name) = none) (found : Fields) :
    (Value.fieldTrees format fields).foldlM (enter? schema) found = some found := by
  have each : ∀ field ∈ fields, schema.find? (·.goesBy field.1) = none :=
    fun field member => foreign _ (listed.subset (List.mem_map_of_mem member))
  clear listed
  induction fields with
  | nil => rfl
  | cons field rest ih =>
    rw [Value.fieldTrees, List.foldlM_cons, enter?, FieldName.ofKey?_textTree,
      each field List.mem_cons_self]
    exact ih fun other member => each other (List.mem_cons_of_mem _ member)

/-- A record is read field by field. -/
theorem ofTree?_treeIn (clear : Clear schema) (listed : InOrder (schema.map (·.name)) fields) :
    ofTree? schema ((Value.record fields).treeIn format) = some (ofRecord format fields) :=
  foldlM_enter?_listed format [] fields clear listed

/-- A part of an open record is read as if it stood alone. -/
theorem ofMap?_treeIn (clear : Clear schema) (listed : InOrder (schema.map (·.name)) fields) :
    ofMap? schema ((Value.record fields).treeIn format) = some (ofRecord format fields) :=
  foldlM_enter?_listed format [] fields clear listed

/-- A part of an open record has no field of another. -/
theorem ofMap?_treeIn_foreign {names : List String} (listed : InOrder names fields)
    (foreign : ∀ name ∈ names, schema.find? (·.goesBy name) = none) :
    ofMap? schema ((Value.record fields).treeIn format) = some (ofRecord format []) :=
  foldlM_enter?_foreign format listed foreign _

namespace Open

theorem foldlM_enter?_listed (format : Format) (fields further : List (String × Value))
    (clear : Clear schema) (listed : InOrder (schema.map (·.name)) (fields ++ further))
    (others : List (Tree × Tree)) :
    (Value.fieldTrees format further).foldlM (enter? schema) ⟨ofRecord format fields, others⟩ =
      some ⟨ofRecord format (fields ++ further), others⟩ := by
  induction further generalizing fields with
  | nil => simp [Value.fieldTrees]
  | cons field rest ih =>
    obtain ⟨found, leads, added⟩ := add?_next format clear listed
    have entered := ih (fields ++ [field]) (by simpa using listed)
    rw [Value.fieldTrees, List.foldlM_cons, enter?, Tree.text?_textTree]
    simpa [leads, added] using entered

/-- Fields that the schema does not know are handed on with the types that they have by themselves. -/
theorem foldlM_enter?_foreign (format : Format) {names : List String} (listed : InOrder names fields)
    (foreign : ∀ name ∈ names, schema.find? (·.goesBy name) = none)
    (typed : ∀ field ∈ fields, field.2.SelfTyped) (own : Fields) (others : List (Tree × Tree)) :
    (Value.fieldTrees format fields).foldlM (enter? schema) ⟨own, others⟩ =
      some ⟨own, others ++ Value.fieldTrees .json fields⟩ := by
  have each : ∀ field ∈ fields, schema.find? (·.goesBy field.1) = none :=
    fun field member => foreign _ (listed.subset (List.mem_map_of_mem member))
  clear listed
  induction fields generalizing others with
  | nil => simp [Value.fieldTrees]
  | cons field rest ih =>
    have same := Value.typed?_treeIn format (typed field List.mem_cons_self)
    have handed := ih (fun other member => typed other (List.mem_cons_of_mem _ member))
      (others ++ [(.text field.1, field.2.treeIn .json)])
      (fun other member => each other (List.mem_cons_of_mem _ member))
    rw [Value.fieldTrees, List.foldlM_cons, enter?, Tree.text?_textTree]
    simpa [each field List.mem_cons_self, same, Value.fieldTrees, Format.textTree] using handed

/-- An open record is read as its own fields and those of its further part, which stand together. -/
theorem ofTree?_treeIn {front further back : List (String × Value)} {names : List String}
    (listed : InOrder names further) (clear : Clear schema)
    (own : InOrder (schema.map (·.name)) (front ++ back))
    (foreign : ∀ name ∈ names, schema.find? (·.goesBy name) = none)
    (typed : ∀ field ∈ further, field.2.SelfTyped) :
    ofTree? schema ((Value.record (front ++ further ++ back)).treeIn format) =
      some ⟨ofRecord format (front ++ back), Value.fieldTrees .json further⟩ := by
  have frontListed : InOrder (schema.map (·.name)) ([] ++ front) := by
    rw [InOrder, List.map_append] at own
    exact (List.sublist_append_left ..).trans own
  have first := foldlM_enter?_listed format [] front clear frontListed []
  have second := foldlM_enter?_foreign format listed foreign typed (ofRecord format front) []
  have third := foldlM_enter?_listed format front back clear own (Value.fieldTrees .json further)
  have parts : Value.fieldTrees format (front ++ further ++ back) = Value.fieldTrees format front ++
      Value.fieldTrees format further ++ Value.fieldTrees format back := by
    simp [Value.fieldTrees_eq_map]
  rw [Value.treeIn, ofTree?, Tree.entries?, Option.bind_some, parts, List.foldlM_append,
    List.foldlM_append]
  exact (congrArg (· >>= _) (congrArg (· >>= _) first)).trans
    ((congrArg (· >>= _) second).trans third)

end Open

/-! ## Looking fields up -/

section Lookup

variable {α : Type} (name : String) (decode : Tree → Option α)

@[simp] theorem required_ofRecord :
    (ofRecord format fields).required name decode =
      (fields.lookup name).bind fun value => decode (value.treeIn format) := by
  rw [required, find?_ofRecord]
  cases fields.lookup name <;> rfl

@[simp] theorem withDefault_ofRecord (default : α) :
    (ofRecord format fields).withDefault name default decode =
      (fields.lookup name).elim (some default) fun value => decode (value.treeIn format) := by
  rw [withDefault, find?_ofRecord]
  cases fields.lookup name <;> rfl

@[simp] theorem optional_ofRecord :
    (ofRecord format fields).optional name decode =
      (fields.lookup name).elim (some none) fun value => Tree.option? decode (value.treeIn format) :=
  withDefault_ofRecord ..

@[simp] theorem nullable_ofRecord :
    (ofRecord format fields).nullable name decode =
      (fields.lookup name).elim (some none) fun value => Tree.option? decode (value.treeIn format) :=
  optional_ofRecord ..

end Lookup

end Fields

@[simp] theorem lookup_cons_eq {α : Type} (key name : String) (value : α) (rest : List (String × α)) :
    ((name, value) :: rest).lookup key = if key = name then some value else rest.lookup key := by
  rw [List.lookup_cons]
  by_cases same : key = name
  · simp [same]
  · simp [same, beq_false_of_ne same]

namespace Value

/-- What is written of a list that is left out when it is empty. -/
def unlessEmpty (items : List Value) : Option Value :=
  if items.isEmpty then none else some (.list items)

@[simp] theorem lookup_field? (key name : String) (value : Option Value) :
    (field? name value).lookup key = if key = name then value else none := by
  cases value <;> simp [field?]

@[simp] theorem lookup_listField (key name : String) (items : List Value) :
    (listField name items).lookup key = if key = name then unlessEmpty items else none := by
  unfold listField unlessEmpty
  split <;> simp

variable {format : Format} {α : Type} {write : α → Value} {decode : Tree → Option α}

/-- What is left out when it is absent is read as absent. -/
@[simp] theorem elim_option? {content : Option α}
    (each : ∀ value ∈ content, decode ((write value).treeIn format) = some value)
    (solid : ∀ value ∈ content, ((write value).treeIn format).isNull = false) :
    content.elim (some none) ((fun value => Tree.option? decode (value.treeIn format)) ∘ write) =
      some content := by
  cases content with
  | none => rfl
  | some value => simp [Tree.option?, each value rfl, solid value rfl]

/-- What is left out when it is empty is read as empty. -/
@[simp] theorem elim_list? {items : List α}
    (each : ∀ item ∈ items, decode ((write item).treeIn format) = some item) :
    (unlessEmpty (items.map write)).elim (some [])
      (fun value => Tree.list? decode (value.treeIn format)) = some items := by
  cases items with
  | nil => rfl
  | cons item rest => exact list?_treeIn each

end Value

end ClassModel.Document
