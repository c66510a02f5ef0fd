import ClassModel.Document.Scalar

/-! # Document trees

What the readers of the formats make of a text, before anything is expected of it. Some parts of a
document are read without regard to what is expected of them; there the scalars take the meaning
that they have by themselves (`Tree.typed?`). An invalid part does no harm unless it is used.
-/

namespace ClassModel.Document

/-- The structure of a document. -/
inductive Tree where
  | null
  | bool (value : Bool)
  /-- A natural number below 2^64. -/
  | natural (value : Nat)
  /-- Any other number. -/
  | number
  | text (value : String)
  /-- An unquoted scalar whose meaning hangs on what is expected. -/
  | plain (value : String)
  /-- A quoted scalar of a format that has unquoted ones. -/
  | quoted (value : String)
  | list (items : List Tree)
  | map (entries : List (Tree × Tree))
  /-- An alternative marked by a tag. -/
  | tagged (tag : String) (content : Tree)
  /-- Something well formed that means nothing. -/
  | invalid
  deriving Repr, Inhabited

namespace Tree

/-- The meaning of a plain scalar by itself. -/
def ofPlain (plain : String) : Option Tree :=
  match Scalar.ofPlain plain with
  | .null => some .null
  | .bool value => some (.bool value)
  | .natural value => some (.natural value)
  | .number => some .number
  | .wide => none
  | .text => some (.text plain)

mutual

/-- The tree with the meaning that every scalar has by itself; nothing in it may be invalid. -/
def typed? : Tree → Option Tree
  | .plain value => ofPlain value
  | .quoted value => some (.text value)
  | .list items => (typedItems? items).map .list
  | .map entries => (typedEntries? entries).map .map
  | .tagged _ _ => none
  | .invalid => none
  | .null => some .null
  | .bool value => some (.bool value)
  | .natural value => some (.natural value)
  | .number => some .number
  | .text value => some (.text value)

def typedItems? : List Tree → Option (List Tree)
  | [] => some []
  | item :: rest => do
    let item ← typed? item
    let rest ← typedItems? rest
    some (item :: rest)

def typedEntries? : List (Tree × Tree) → Option (List (Tree × Tree))
  | [] => some []
  | (key, value) :: rest => do
    let key ← typed? key
    let value ← typed? value
    let rest ← typedEntries? rest
    some ((key, value) :: rest)

end

mutual

/-- The tree with all lists and tables invalid that stand deeper than so many levels of them. -/
def within : Nat → Tree → Tree
  | depth + 1, .list items => .list (itemsWithin depth items)
  | depth + 1, .map entries => .map (entriesWithin depth entries)
  | 0, .list _ => .invalid
  | 0, .map _ => .invalid
  | depth, .tagged tag content => .tagged tag (within depth content)
  | _, tree => tree

def itemsWithin (depth : Nat) : List Tree → List Tree
  | [] => []
  | item :: rest => within depth item :: itemsWithin depth rest

def entriesWithin (depth : Nat) : List (Tree × Tree) → List (Tree × Tree)
  | [] => []
  | (key, value) :: rest => (within depth key, within depth value) :: entriesWithin depth rest

end

/-- A text; a plain scalar is its own text whatever else it could mean. -/
def text? : Tree → Option String
  | .text value => some value
  | .plain value => some value
  | .quoted value => some value
  | _ => none

def bool? : Tree → Option Bool
  | .bool value => some value
  | .plain value => Scalar.bool? value
  | _ => none

/-- A natural number below 2^32. -/
def natural32? : Tree → Option (Fin UInt32.size)
  | .natural value => below? value
  | .plain value => (Scalar.unsigned? value.toList).bind below?
  | _ => none
where
  below? (value : Nat) : Option (Fin UInt32.size) :=
    if small : value < UInt32.size then some ⟨value, small⟩ else none

/-- The items of a list; a plain scalar without text is the empty list. -/
def items? : Tree → Option (List Tree)
  | .list items => some items
  | .plain "" => some []
  | _ => none

/-- The entries of a table; a plain scalar without text is the empty table. -/
def entries? : Tree → Option (List (Tree × Tree))
  | .map entries => some entries
  | .plain "" => some []
  | _ => none

def isNull : Tree → Bool
  | .null => true
  | .plain value => Scalar.isNull value
  | _ => false

/-- Something, or nothing where the document says null. -/
def option? {α : Type} (decode : Tree → Option α) (tree : Tree) : Option (Option α) :=
  if tree.isNull then some none else (decode tree).map some

def list? {α : Type} (decode : Tree → Option α) (tree : Tree) : Option (List α) :=
  tree.items?.bind fun items => items.mapM decode

/-- The entries of a table, keys and values decoded. -/
def table? {κ α : Type} (decodeKey : Tree → Option κ) (decode : Tree → Option α) (tree : Tree) :
    Option (List (κ × α)) :=
  tree.entries?.bind fun entries => entries.mapM fun (key, value) => do
    let key ← decodeKey key
    let value ← decode value
    some (key, value)

/-- One of several names, also written as a table with the name, or its number, and nothing. -/
def name? {α : Type} (names : List (String × α)) : Tree → Option α
  | .map [(.text value, .null)] => List.lookup value names
  | .map [(.natural index, .null)] => (names[index]?).map (·.2)
  | tree => tree.text?.bind (List.lookup · names)

/-- An alternative with its content: a tag, or a table with one entry. -/
def choice? : Tree → Option (String × Tree)
  | .tagged tag content => some (tag, content)
  | .map [(.text tag, content)] => some (tag, content)
  | _ => none

end Tree

/-- The fields found of a record. -/
structure Fields where
  found : List (String × Tree)
  /-- Whether the record is written as a list of its fields in order. -/
  positional : Bool := false

/-- A field of a record, by its name and the names it may go by besides. -/
structure FieldName where
  name : String
  aliases : List String := []
  deriving DecidableEq, Repr

namespace FieldName

/-- Whether the field goes by a name. -/
def goesBy (field : FieldName) (name : String) : Bool := field.name = name || field.aliases.contains name

/-- The field that a key stands for. A key is a text, or the number of a field; a text or number
without field is passed over. -/
def ofKey? (fields : List FieldName) : Tree → Option (Option FieldName)
  | .natural index => some fields[index]?
  | key => key.text?.map fun name => fields.find? (·.goesBy name)

end FieldName

namespace Fields

def find? (fields : Fields) (name : String) : Option Tree := List.lookup name fields.found

/-- Adds a field; none may occur twice. -/
def add? (fields : Fields) (field : FieldName) (value : Tree) : Option Fields :=
  if (fields.find? field.name).isSome then none
  else some { fields with found := fields.found ++ [(field.name, value)] }

/-- Sorts an entry among the fields, or passes it over. -/
def enter? (schema : List FieldName) (fields : Fields) (entry : Tree × Tree) : Option Fields :=
  match FieldName.ofKey? schema entry.1 with
  | none => none
  | some none => some fields
  | some (some field) => fields.add? field entry.2

/-- The fields of a record that is written as a table or as a list. -/
def ofTree? (schema : List FieldName) : Tree → Option Fields
  | .map entries => entries.foldlM (enter? schema) ⟨[], false⟩
  | .list items =>
    if items.length ≤ schema.length then some ⟨(schema.map (·.name)).zip items, true⟩ else none
  | _ => none

/-- The fields of a record that is a table in any case. -/
def ofMap? (schema : List FieldName) : Tree → Option Fields
  | .map entries => entries.foldlM (enter? schema) ⟨[], false⟩
  | _ => none

/-- The fields of an open record: what is not a field of its own belongs to a further part. -/
structure Open where
  own : Fields
  further : List (Tree × Tree)

/-- Sorts an entry among the own fields or, with the meaning it has by itself, among the others. -/
def Open.enter? (schema : List FieldName) (fields : Open) (entry : Tree × Tree) : Option Open := do
  let name ← entry.1.text?
  match schema.find? (·.goesBy name) with
  | some field => do
    let own ← fields.own.add? field entry.2
    some { fields with own }
  | none => do
    let value ← entry.2.typed?
    some { fields with further := fields.further ++ [(.text name, value)] }

/-- The fields of an open record, which is a table in any case. -/
def Open.ofTree? (schema : List FieldName) (tree : Tree) : Option Open :=
  tree.entries?.bind fun entries => entries.foldlM (enter? schema) ⟨⟨[], false⟩, []⟩

/-- A field that must be there. -/
def required {α : Type} (fields : Fields) (name : String) (decode : Tree → Option α) : Option α :=
  (fields.find? name).bind decode

/-- A field that may be missing. -/
def withDefault {α : Type} (fields : Fields) (name : String) (default : α)
    (decode : Tree → Option α) : Option α :=
  match fields.find? name with
  | some tree => decode tree
  | none => some default

/-- A field that may be missing or null. -/
def optional {α : Type} (fields : Fields) (name : String) (decode : Tree → Option α) :
    Option (Option α) :=
  fields.withDefault name none (Tree.option? decode)

/-- A field that may be null, or missing from a table. -/
def nullable {α : Type} (fields : Fields) (name : String) (decode : Tree → Option α) :
    Option (Option α) :=
  if fields.positional then fields.required name (Tree.option? decode)
  else fields.optional name decode

end Fields

end ClassModel.Document
