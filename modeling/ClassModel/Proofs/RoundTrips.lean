import ClassModel.Proofs.JsonText
import ClassModel.Proofs.Settled
import ClassModel.Proofs.YamlText

/-! # Documents are read as they were written

Printing loses nothing of a value that is not too deep, and the readers of records undo their writers.
Together, a record that is written in a format is read from its bytes as it was: every declaration,
every manifest, and every model that analysis can produce.
-/

namespace ClassModel.Document

/-! ## One record -/

/-- How deep a document of a format may be. -/
def Format.depthLimit : Format → Nat
  | .json => Json.depthLimit
  | .yaml => Yaml.depthLimit

/-- A table with entries is read from its text. -/
theorem Format.read?_print (format : Format) {field : String × Value} {fields : List (String × Value)}
    (fits : (Value.record (field :: fields)).Fits format.depthLimit) :
    format.read? (format.print (.record (field :: fields))) =
      some ((Value.record (field :: fields)).treeIn format) := by
  cases format with
  | json =>
    rw [read?, print]
    exact Json.read?_print fits
  | yaml =>
    rw [read?, print]
    exact Yaml.read?_print fits

variable {α : Type} [Documented α]

/-- A record that its document says everything about: the value is a table with entries, not too deep for
any format, and what the readers make of it is the record. -/
structure Restorable (content : α) : Prop where
  table : ∃ field fields, Documented.toValue content = .record (field :: fields)
  shallow (format : Format) : (Documented.toValue content).Fits format.depthLimit
  restored (format : Format) : Documented.ofTree? ((Documented.toValue content).treeIn format) = some content

/-- Such a record is read as it is from the bytes of its text. -/
theorem Restorable.decode?_encode {content : α} (restorable : Restorable content) (format : Format) :
    format.decode? (format.encode content).toUTF8 = some content := by
  obtain ⟨field, fields, table⟩ := restorable.table
  have valid : String.fromUTF8? (format.encode content).toUTF8 = some (format.encode content) :=
    dif_pos (format.encode content).isValidUTF8
  have read : format.read? (format.encode content) = some ((Documented.toValue content).treeIn format) := by
    rw [Format.encode, table]
    exact format.read?_print (table ▸ restorable.shallow format)
  have held : format.recordOf? (format.encode content) = some content := by
    rw [Format.recordOf?, read, Option.bind_some, restorable.restored format]
  cases format <;> exact (congrArg (Option.bind · _) valid).trans held

theorem Restorable.decodeBytes_encode {content : α} (restorable : Restorable content) (format : Format) :
    format.decodeBytes (format.encode content).toUTF8 = .ok content := by
  rw [Format.decodeBytes, restorable.decode?_encode]

end ClassModel.Document

namespace ClassModel

open Document

/-! ## The kinds of records -/

theorem Declaration.Subsystem.restorable (subsystem : Subsystem) : Restorable subsystem where
  table := ⟨_, _, rfl⟩
  shallow format := by cases format <;> exact subsystem.fits
  restored format := subsystem.ofTree?_toValue format

theorem Declaration.StateModel.restorable (model : StateModel) : Restorable model where
  table := ⟨_, _, rfl⟩
  shallow format := by cases format <;> exact model.fits
  restored format := model.ofTree?_toValue format

theorem ModelInput.restorable (input : ModelInput) : Restorable input where
  table := ⟨_, _, rfl⟩
  shallow format := by cases format <;> exact input.fits
  restored format := input.ofTree?_toValue format

theorem Project.Manifest.restorable (manifest : Manifest) : Restorable manifest where
  table := ⟨_, _, rfl⟩
  shallow format := by cases format <;> exact manifest.fits
  restored format := manifest.ofTree?_toValue format

theorem Model.Settled.restorable {model : Model} (settled : model.Settled) : Restorable model where
  table := ⟨_, _, rfl⟩
  shallow format := by cases format <;> exact model.fits
  restored format := Model.ofTree?_toValue format settled

/-! ## Main results -/

/-- Declarations and manifests are read from JSON as they were written. -/
theorem Document.json_restores_declarations :
    (∀ subsystem : Declaration.Subsystem,
      Format.json.decodeBytes (Format.json.encode subsystem).toUTF8 = .ok subsystem) ∧
    (∀ stateModel : Declaration.StateModel,
      Format.json.decodeBytes (Format.json.encode stateModel).toUTF8 = .ok stateModel) ∧
    (∀ input : ModelInput, Format.json.decodeBytes (Format.json.encode input).toUTF8 = .ok input) ∧
    ∀ manifest : Project.Manifest,
      Format.json.decodeBytes (Format.json.encode manifest).toUTF8 = .ok manifest :=
  ⟨fun subsystem => subsystem.restorable.decodeBytes_encode .json,
    fun stateModel => stateModel.restorable.decodeBytes_encode .json,
    fun input => input.restorable.decodeBytes_encode .json,
    fun manifest => manifest.restorable.decodeBytes_encode .json⟩

/-- An analyzed model has no hints left, which its document would not tell, and it is read from JSON as
it was written. -/
theorem Model.json_restores {input : ModelInput} {options : AnalysisOptions} {model : Model}
    (success : analyze input options = .ok model) :
    (∀ cls ∈ model.classes.values, ∀ attr ∈ cls.allAttributes, attr.hints = []) ∧
    Format.json.decodeBytes (Format.json.encode model).toUTF8 = .ok model :=
  ⟨hints_of_analyze success, (settled_of_analyze success).restorable.decodeBytes_encode .json⟩

namespace Sample

/-- Vehicles are owned by persons or run by firms, and a van is found by the vehicle that it is. -/
def depot : ModelInput :=
  { subsystems := [
      { name := "Depot"
        classes := [
          { name := "Person"
            attributes := [{ name := "Name", scalar := some "Text", identifiers := [.first] }] },
          { name := "Firm"
            attributes := [{ name := "Code", scalar := some "Number", identifiers := [.first] }] },
          { name := "Vehicle"
            attributes := [
              { name := "Plate", scalar := some "Text", identifiers := [.first] },
              { name := "Owner", unionRelationships := [⟨"R10"⟩, ⟨"R2"⟩] }] },
          { name := "Van"
            attributes := [
              { name := "Plate", identifiers := [.first], relationships := [⟨"R3"⟩]
                hints := [{ target := some "Vehicle" }] }] }]
        relationships := [
          ⟨⟨"R10"⟩, .association ⟨"Vehicle", "is owned by", .many, false⟩
            ⟨"Person", "owns", .many, false⟩ none⟩,
          ⟨⟨"R2"⟩, .association ⟨"Vehicle", "is run by", .many, false⟩
            ⟨"Firm", "runs", .many, false⟩ none⟩,
          ⟨⟨"R3"⟩, .generalization "Vehicle" ["Van"]⟩] }]
    stateModels := [
      { domain := "Depot", owner := .lifecycle "Van", events := [{ name := "Return" }]
        states := [
          { name := "Out", kind := .normal, transitions := [⟨"Return", some "Back"⟩] },
          { name := "Back", kind := .deletion }] }] }

end Sample

/-- The owner of a vehicle has a type of two members, and the hint of the van is gone. -/
theorem Model.json_restores_depot : ∃ model, analyze Sample.depot = .ok model ∧
    (model.classes.values.flatMap (·.attributes)).map (·.type) =
      [some (.scalar "Text"), some (.scalar "Number"), some (.scalar "Text"),
        some (.union ["Number", "Text"]), some (.scalar "Text")] ∧
    (∀ cls ∈ model.classes.values, ∀ attr ∈ cls.allAttributes, attr.hints = []) ∧
    Format.json.decodeBytes (Format.json.encode model).toUTF8 = .ok model := by
  have ran : ((analyze Sample.depot).toOption.map fun model =>
      (model.classes.values.flatMap (·.attributes)).map (·.type)) =
      some [some (.scalar "Text"), some (.scalar "Number"), some (.scalar "Text"),
        some (.union ["Number", "Text"]), some (.scalar "Text")] := by
    decide +kernel
  simp only [Option.map_eq_some_iff, toOption_eq_some_iff] at ran
  obtain ⟨model, success, types⟩ := ran
  exact ⟨model, success, types, json_restores success⟩

/-- Declarations and analyzed models are read from YAML as they were written, whatever their names. -/
theorem Document.yaml_restores_documents :
    (∀ subsystem : Declaration.Subsystem,
      Format.yaml.decodeBytes (Format.yaml.encode subsystem).toUTF8 = .ok subsystem) ∧
    (∀ stateModel : Declaration.StateModel,
      Format.yaml.decodeBytes (Format.yaml.encode stateModel).toUTF8 = .ok stateModel) ∧
    (∀ input : ModelInput, Format.yaml.decodeBytes (Format.yaml.encode input).toUTF8 = .ok input) ∧
    ∀ (input : ModelInput) (options : AnalysisOptions) (model : Model),
      analyze input options = .ok model →
        Format.yaml.decodeBytes (Format.yaml.encode model).toUTF8 = .ok model :=
  ⟨fun subsystem => subsystem.restorable.decodeBytes_encode .yaml,
    fun stateModel => stateModel.restorable.decodeBytes_encode .yaml,
    fun input => input.restorable.decodeBytes_encode .yaml,
    fun _ _ _ success => (Model.settled_of_analyze success).restorable.decodeBytes_encode .yaml⟩

namespace Sample

/-- Names that read as numbers, truth values or nothing, that start with an indicator, that contain
quotes, line breaks or a bell. -/
def awkward : ModelInput :=
  { subsystems := [
      { name := "- a: b"
        classes := [
          { name := "12"
            attributes := [{ name := "null", scalar := some "true", identifiers := [.first] }] },
          { name := "it's\n\"two\""
            attributes := [
              { name := "~", relationships := [⟨"R1"⟩], renames := [⟨⟨"R1"⟩, "null"⟩] },
              { name := "one\n\n two\n", scalar := some "#0x1F" }] }]
        relationships := [
          ⟨⟨"R1"⟩, .association ⟨"it's\n\"two\"", "", .many, false⟩ ⟨"12", " \t", .one, false⟩ none⟩] }]
    stateModels := [
      { domain := "no\n", owner := .lifecycle "12", events := [{ name := "? 1e3" }]
        states := [
          { name := "\x07\u2028", kind := .normal, transitions := [⟨"? 1e3", some "!tag"⟩] },
          { name := "!tag", kind := .deletion }] }] }

end Sample

/-- The input with awkward names and the model of it survive. -/
theorem Document.yaml_restores_documents_awkward : ∃ model, analyze Sample.awkward = .ok model ∧
    model.classes.keys = ["12", "it's\n\"two\""] ∧
    Format.yaml.decodeBytes (Format.yaml.encode Sample.awkward).toUTF8 = .ok Sample.awkward ∧
    Format.yaml.decodeBytes (Format.yaml.encode model).toUTF8 = .ok model := by
  have ran : ((analyze Sample.awkward).toOption.map fun model => model.classes.keys) =
      some ["12", "it's\n\"two\""] := by
    decide +kernel
  simp only [Option.map_eq_some_iff, toOption_eq_some_iff] at ran
  obtain ⟨model, success, names⟩ := ran
  exact ⟨model, success, names, yaml_restores_documents.2.2.1 _,
    yaml_restores_documents.2.2.2 _ _ _ success⟩

end ClassModel
