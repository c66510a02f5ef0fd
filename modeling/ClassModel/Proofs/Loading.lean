import ClassModel.Project.Loader
import ClassModel.Proofs.FileExtensions
import ClassModel.Proofs.RoundTrips

/-! # What a project loads

A project is loaded exactly if every document that its manifest names tells its format, can be read and
holds a record of its kind, and then with those records in the order of the manifest. Otherwise the error
tells the first document that fails, subsystems before state models, and the first thing that is wrong with
it. An analysis fails as the loading does, or else as the analysis of what was loaded. All this holds
whatever files are read from and whatever reads documents.
-/

namespace ClassModel.Project

open Document

variable {Files : Type} [FileSource Files] {α : Type} [Decoder α]

/-! ## One document -/

/-- The document at a path holds a record: the extension of the path tells a format, in which the bytes that
are read there are the record. -/
def Holds (files : Files) (path : Path) (content : α) : Prop :=
  ∃ format bytes, path.Tells format ∧ FileSource.read? files path = some bytes ∧
    format.decode? bytes = some content

/-- What is wrong with the document at a path that should hold a record of a kind. A missing format counts
before a file that cannot be read, and that before what the file holds. -/
inductive DocumentFault (α : Type) [Decoder α] (files : Files) (path : Path) : DocumentError → Prop
  | unsupported (untold : ∀ format, ¬path.Tells format) : DocumentFault α files path (.unsupported path.text)
  | inaccessible {format : Format} (told : path.Tells format)
    (unread : FileSource.read? files path = none) : DocumentFault α files path .inaccessible
  | malformed {format : Format} {bytes : ByteArray} (told : path.Tells format)
    (read : FileSource.read? files path = some bytes)
    (foreign : (format.decode? bytes : Option α) = none) : DocumentFault α files path (.malformed format)

theorem Path.format_eq_ok_iff {path : Path} {format : Format} : path.format = .ok format ↔ path.Tells format := by
  rw [← format?_eq_some_iff, Path.format]
  cases path.format? <;> simp

theorem Path.format_eq_error_iff {path : Path} {source : DocumentError} :
    path.format = .error source ↔ (∀ format, ¬path.Tells format) ∧ source = .unsupported path.text := by
  simp only [← format?_eq_some_iff, ← ne_eq, ← Option.eq_none_iff_forall_ne_some, Path.format]
  cases path.format? <;> simp [eq_comm]

theorem FileSource.read_eq_ok_iff {files : Files} {path : Path} {bytes : ByteArray} :
    FileSource.read files path = .ok bytes ↔ FileSource.read? files path = some bytes := by
  unfold FileSource.read
  cases FileSource.read? files path <;> simp

theorem FileSource.read_eq_error_iff {files : Files} {path : Path} {source : DocumentError} :
    FileSource.read files path = .error source ↔
      FileSource.read? files path = none ∧ source = .inaccessible := by
  unfold FileSource.read
  cases FileSource.read? files path <;> simp [eq_comm]

theorem decodeBytes_eq_ok_iff {format : Format} {bytes : ByteArray} {content : α} :
    format.decodeBytes bytes = .ok content ↔ format.decode? bytes = some content := by
  unfold Format.decodeBytes
  cases (format.decode? bytes : Option α) <;> simp

/-- Bytes that hold no record are malformed. -/
theorem decodeBytes_eq_error_iff {format : Format} {bytes : ByteArray} {source : DocumentError} :
    (format.decodeBytes bytes : Except DocumentError α) = .error source ↔
      (format.decode? bytes : Option α) = none ∧ source = .malformed format := by
  unfold Format.decodeBytes
  cases (format.decode? bytes : Option α) <;> simp [eq_comm]

theorem readDocument_eq_ok_iff {files : Files} {path : Path} {content : α} :
    Loader.readDocument α files path = .ok content ↔ Holds files path content := by
  simp only [Loader.readDocument, bind_eq_ok_iff, Path.format_eq_ok_iff, FileSource.read_eq_ok_iff,
    decodeBytes_eq_ok_iff, Holds, exists_and_left]

theorem readDocument_eq_error_iff {files : Files} {path : Path} {source : DocumentError} :
    Loader.readDocument α files path = .error source ↔ DocumentFault α files path source := by
  simp only [Loader.readDocument, bind_eq_error_iff, Path.format_eq_error_iff, Path.format_eq_ok_iff,
    FileSource.read_eq_error_iff, FileSource.read_eq_ok_iff, decodeBytes_eq_error_iff]
  constructor
  · rintro (⟨untold, rfl⟩ | ⟨format, told, ⟨unread, rfl⟩ | ⟨bytes, read, foreign, rfl⟩⟩)
    · exact .unsupported untold
    · exact .inaccessible told unread
    · exact .malformed told read foreign
  · rintro (untold | ⟨told, unread⟩ | ⟨told, read, foreign⟩)
    · exact .inl ⟨untold, rfl⟩
    · exact .inr ⟨_, told, .inl ⟨unread, rfl⟩⟩
    · exact .inr ⟨_, told, .inr ⟨_, read, foreign, rfl⟩⟩

/-! ## All documents -/

namespace Loader

variable {loader : Loader} {files : Files} {entries : List Path}

/-- The first of some entries of a manifest whose document does not hold a record of a kind, and the error
that tells its path and what is wrong with it. -/
def FirstFault (α : Type) [Decoder α] (loader : Loader) (files : Files) (entries : List Path)
    (error : ProjectError) : Prop :=
  ∃ before relative after source, entries = before ++ relative :: after ∧
    (∀ earlier ∈ before, ∃ content : α, Holds files (loader.root.join earlier) content) ∧
    DocumentFault α files (loader.root.join relative) source ∧
    error = .document (loader.root.join relative) source

theorem loadDocument_eq_ok_iff {relative : Path} {content : α} :
    loader.loadDocument α files relative = .ok content ↔ Holds files (loader.root.join relative) content := by
  rw [loadDocument, mapError_eq_ok_iff, readDocument_eq_ok_iff]

theorem loadDocument_eq_error_iff {relative : Path} {error : ProjectError} :
    loader.loadDocument α files relative = .error error ↔
      ∃ source, DocumentFault α files (loader.root.join relative) source ∧
        error = .document (loader.root.join relative) source := by
  rw [loadDocument, mapError_eq_error_iff]
  exact exists_congr fun _ => and_congr readDocument_eq_error_iff eq_comm

theorem mapM_loadDocument_eq_ok_iff {contents : List α} :
    entries.mapM (loader.loadDocument α files) = .ok contents ↔
      List.Forall₂ (fun relative content => Holds files (loader.root.join relative) content)
        entries contents := by
  simp only [mapM_eq_ok_iff, loadDocument_eq_ok_iff]

theorem mapM_loadDocument_eq_error_iff {error : ProjectError} :
    entries.mapM (loader.loadDocument α files) = .error error ↔
      loader.FirstFault α files entries error := by
  simp only [mapM_eq_error_iff, loadDocument_eq_ok_iff, loadDocument_eq_error_iff, FirstFault,
    exists_and_left]

section Projects

variable [Decoder Declaration.Subsystem] [Decoder Declaration.StateModel]

/-- Every document holds its record. -/
theorem load_eq_ok_iff {input : ModelInput} :
    loader.load files = .ok input ↔
      List.Forall₂ (fun relative subsystem => Holds files (loader.root.join relative) subsystem)
        loader.manifest.subsystems input.subsystems ∧
      List.Forall₂ (fun relative stateModel => Holds files (loader.root.join relative) stateModel)
        loader.manifest.stateModels input.stateModels := by
  simp only [load, bind_eq_ok_iff, mapM_loadDocument_eq_ok_iff, Except.ok.injEq]
  constructor
  · rintro ⟨subsystems, held, stateModels, modelsHeld, rfl⟩
    exact ⟨held, modelsHeld⟩
  · rintro ⟨held, modelsHeld⟩
    exact ⟨_, held, _, modelsHeld, rfl⟩

/-- The first document that does not hold its record ends the loading. -/
theorem load_eq_error_iff {error : ProjectError} :
    loader.load files = .error error ↔
      loader.FirstFault Declaration.Subsystem files loader.manifest.subsystems error ∨
      (∀ relative ∈ loader.manifest.subsystems,
        ∃ subsystem : Declaration.Subsystem, Holds files (loader.root.join relative) subsystem) ∧
      loader.FirstFault Declaration.StateModel files loader.manifest.stateModels error := by
  simp only [load, bind_eq_error_iff, mapM_loadDocument_eq_error_iff, mapM_loadDocument_eq_ok_iff,
    reduceCtorEq, and_false, exists_const, or_false, exists_and_right, exists_forall₂_iff]

/-- A project is loaded exactly if each of its documents holds a record of its kind in the format that its
path tells, and then with these records in the order of the manifest. Otherwise the error is that of the
first document at fault. Analysis is that of the loaded input under the options of the manifest, and
fails as the loading does, or else as it does. -/
theorem load_exact (loader : Loader) (files : Files) :
    ((∃ input, loader.load files = .ok input) ↔
      (∀ relative ∈ loader.manifest.subsystems,
        ∃ subsystem : Declaration.Subsystem, Holds files (loader.root.join relative) subsystem) ∧
      ∀ relative ∈ loader.manifest.stateModels,
        ∃ stateModel : Declaration.StateModel, Holds files (loader.root.join relative) stateModel) ∧
    (∀ input, loader.load files = .ok input ↔
      List.Forall₂ (fun relative subsystem => Holds files (loader.root.join relative) subsystem)
        loader.manifest.subsystems input.subsystems ∧
      List.Forall₂ (fun relative stateModel => Holds files (loader.root.join relative) stateModel)
        loader.manifest.stateModels input.stateModels) ∧
    (∀ error, loader.load files = .error error ↔
      loader.FirstFault Declaration.Subsystem files loader.manifest.subsystems error ∨
      (∀ relative ∈ loader.manifest.subsystems,
        ∃ subsystem : Declaration.Subsystem, Holds files (loader.root.join relative) subsystem) ∧
      loader.FirstFault Declaration.StateModel files loader.manifest.stateModels error) ∧
    (∀ model, loader.analyze files = .ok model ↔ ∃ input, loader.load files = .ok input ∧
      ClassModel.analyze input loader.manifest.options = .ok model) ∧
    ∀ error, loader.analyze files = .error error ↔ loader.load files = .error error ∨
      ∃ input cause, loader.load files = .ok input ∧
        ClassModel.analyze input loader.manifest.options = .error cause ∧ error = .analysis cause := by
  refine ⟨?_, fun _ => load_eq_ok_iff, fun _ => load_eq_error_iff, fun model => ?_, fun error => ?_⟩
  · rw [← exists_forall₂_iff, ← exists_forall₂_iff]
    constructor
    · rintro ⟨input, loaded⟩
      obtain ⟨held, modelsHeld⟩ := load_eq_ok_iff.mp loaded
      exact ⟨⟨_, held⟩, ⟨_, modelsHeld⟩⟩
    · rintro ⟨⟨subsystems, held⟩, ⟨stateModels, modelsHeld⟩⟩
      exact ⟨⟨subsystems, stateModels⟩, load_eq_ok_iff.mpr ⟨held, modelsHeld⟩⟩
  · simp only [analyze, bind_eq_ok_iff, mapError_eq_ok_iff]
  · simp only [analyze, bind_eq_error_iff, mapError_eq_error_iff, exists_and_left, @eq_comm _ error]

end Projects

namespace Sample

def shop : Declaration.Subsystem := { name := "Shop" }

def till : Declaration.StateModel := { domain := "Shop", owner := .lifecycle "Till" }

/-- A subsystem in JSON and a state model in YAML below the directory of a project. -/
def shopFiles : FileTree :=
  .ofFiles [(⟨"docs/shop.JSON"⟩, Format.json.encode shop), (⟨"docs/till.Yml"⟩, Format.yaml.encode till)]

/-- The loader of some documents below the directory of that project. -/
def shopLoader (subsystems stateModels : List Path) : Loader := ⟨{ subsystems, stateModels }, ⟨"docs"⟩⟩

end Sample

/-- Documents of both formats are loaded, and a missing one ends the loading before one that tells no
format. -/
theorem load_exact_shop :
    (Sample.shopLoader [⟨"shop.JSON"⟩] [⟨"till.Yml"⟩]).load Sample.shopFiles =
      .ok { subsystems := [Sample.shop], stateModels := [Sample.till] } ∧
    (Sample.shopLoader [⟨"shop.JSON"⟩, ⟨"/lists/stock.yaml"⟩] [⟨".yaml"⟩]).load Sample.shopFiles =
      .error (.document ⟨"/lists/stock.yaml"⟩ .inaccessible) := by
  have shopHeld : Holds Sample.shopFiles ⟨"docs/shop.JSON"⟩ Sample.shop :=
    ⟨.json, _, ⟨"JSON", by decide, by decide +kernel⟩, rfl, Sample.shop.restorable.decode?_encode .json⟩
  have tillHeld : Holds Sample.shopFiles ⟨"docs/till.Yml"⟩ Sample.till :=
    ⟨.yaml, _, ⟨"Yml", by decide, by decide +kernel⟩, rfl, Sample.till.restorable.decode?_encode .yaml⟩
  have told : Path.Tells ⟨"/lists/stock.yaml"⟩ .yaml := ⟨"yaml", by decide, by decide +kernel⟩
  have missing : DocumentFault Declaration.Subsystem Sample.shopFiles ⟨"/lists/stock.yaml"⟩ .inaccessible :=
    .inaccessible told rfl
  obtain ⟨_, loads, _⟩ := load_exact (Sample.shopLoader [⟨"shop.JSON"⟩] [⟨"till.Yml"⟩]) Sample.shopFiles
  obtain ⟨_, _, fails, _⟩ :=
    load_exact (Sample.shopLoader [⟨"shop.JSON"⟩, ⟨"/lists/stock.yaml"⟩] [⟨".yaml"⟩]) Sample.shopFiles
  refine ⟨(loads _).mpr ⟨.cons shopHeld .nil, .cons tillHeld .nil⟩, (fails _).mpr (.inl ?_)⟩
  exact ⟨[⟨"shop.JSON"⟩], ⟨"/lists/stock.yaml"⟩, [], .inaccessible, rfl,
    List.forall_mem_singleton.mpr ⟨Sample.shop, shopHeld⟩, missing, rfl⟩

end Loader

end ClassModel.Project
