import ClassModel.Document.Json.Printer
import ClassModel.Document.Json.Reader
import ClassModel.Document.Resolved
import ClassModel.Document.Yaml.Printer
import ClassModel.Document.Yaml.Reader
import ClassModel.Text.Lowercase

/-! # Document formats

Documents are written in JSON or in YAML. A format is told by the extension of a file or by a media
type, and every record that has a document form is read and written in the same way in both. What reads
the documents is a parameter: nothing that is built on it depends on which texts a reader accepts.
-/

namespace ClassModel.Document

/-- A format of documents. -/
inductive Format where
  | json
  | yaml
  deriving DecidableEq, Repr

namespace Format

def all : List Format := [.json, .yaml]

def name : Format → String
  | .json => "JSON"
  | .yaml => "YAML"

/-- The file extensions of a format. -/
def extensions : Format → List String
  | .json => ["json"]
  | .yaml => ["yaml", "yml"]

def mediaType : Format → String
  | .json => "application/json"
  | .yaml => "application/x-yaml"

/-- Further media types that a format goes by. -/
def otherMediaTypes : Format → List String
  | .json => []
  | .yaml => ["text/yaml"]

/-- The file extensions of all formats. -/
def supportedExtensions : List String := all.flatMap extensions

/-- The format with a file extension, in letters of any case. -/
def ofExtension? (extension : String) : Option Format :=
  all.find? (·.extensions.contains (Text.lowercase extension))

/-- The format with a media type, spelled exactly. -/
def ofMediaType? (mediaType : String) : Option Format :=
  all.find? fun format => format.mediaType = mediaType || format.otherMediaTypes.contains mediaType

/-- Reads a text as one document. -/
def read? : Format → String → Option Tree
  | .json => Json.read?
  | .yaml => Yaml.read?

/-- Writes a value as one document. -/
def print : Format → Value → String
  | .json => Json.print
  | .yaml => Yaml.print

end Format

/-- Why a document is not read or written. -/
inductive DocumentError where
  /-- The text is no document of the format, or does not hold what is expected. -/
  | malformed (format : Format)
  /-- The file cannot be read or written. -/
  | inaccessible
  /-- The name of the file tells no format. -/
  | unsupported (path : String)
  deriving DecidableEq, Repr

def DocumentError.message : DocumentError → String
  | .malformed format => format.name ++ " error: malformed document"
  | .inaccessible => "IO error: file cannot be accessed"
  | .unsupported path => "Unsupported: no document format for '" ++ path ++ "'"

/-- A kind of record that documents hold. -/
class Documented (α : Type) where
  toValue : α → Value
  ofTree? : Tree → Option α

instance : Documented Declaration.Subsystem := ⟨(·.toValue), Declaration.Subsystem.ofTree?⟩

instance : Documented Declaration.StateModel := ⟨(·.toValue), Declaration.StateModel.ofTree?⟩

instance : Documented ModelInput := ⟨(·.toValue), ModelInput.ofTree?⟩

instance : Documented AnalysisOptions := ⟨(·.toValue), AnalysisOptions.ofTree?⟩

instance : Documented Model := ⟨(·.toValue), Model.ofTree?⟩

/-- What reads one kind of record: a document in JSON from its bytes, one in YAML from its text. -/
class Decoder (α : Type) where
  json? : ByteArray → Option α
  yaml? : String → Option α

/-- The record that a text holds in a format. -/
def Format.recordOf? {α : Type} [Documented α] (format : Format) (text : String) : Option α :=
  (format.read? text).bind Documented.ofTree?

/-- Documented records are read through the trees of their documents. -/
instance {α : Type} [Documented α] : Decoder α where
  json? bytes := (String.fromUTF8? bytes).bind Format.json.recordOf?
  yaml? := Format.yaml.recordOf?

namespace Format

/-- Writes a record as a text. -/
def encode {α : Type} [Documented α] (format : Format) (content : α) : String :=
  format.print (Documented.toValue content)

variable {α : Type} [Decoder α]

/-- The record that bytes hold in a format. In YAML they must be a text in UTF-8. -/
def decode? : Format → ByteArray → Option α
  | .json, bytes => Decoder.json? bytes
  | .yaml, bytes => (String.fromUTF8? bytes).bind Decoder.yaml?

/-- Reads a record from bytes. -/
def decodeBytes (format : Format) (bytes : ByteArray) : Except DocumentError α :=
  match format.decode? bytes with
  | some content => .ok content
  | none => .error (.malformed format)

/-- Reads a record from a text. -/
def decode (format : Format) (text : String) : Except DocumentError α := format.decodeBytes text.toUTF8

end Format

end ClassModel.Document
