import ClassModel.Document.Declarations
import ClassModel.Resolved.Model

/-! # Resolved models as documents

The document form of a resolved model and all its parts, in both directions. Every field is
written, and what is absent is null. Tables are written as tables by their keys.
-/

namespace ClassModel

open Document

/-- A table with text keys. -/
def Table.toValue {κ α : Type} (table : Table κ α) (key : κ → String) (value : α → Value) : Value :=
  .record (table.entries.map fun (name, content) => (key name, value content))

/-- A value, or null. -/
def Document.Value.orNull {α : Type} (value : α → Value) : Option α → Value
  | some content => value content
  | none => .null

/-- An optional text. -/
def Document.Value.optionalText : Option String → Value := Value.orNull .text

/-- A table by names; of two entries for one name the later one counts. -/
def Table.byName? {α : Type} (decode : Tree → Option α) (tree : Tree) : Option (Table Name α) :=
  (tree.table? Tree.text? decode).map .ofList

/-- A table by relationship numbers; of two entries for one number the later one counts. -/
def Table.byRnum? {α : Type} (decode : Tree → Option α) (tree : Tree) : Option (Table Rnum α) :=
  (tree.table? Rnum.ofTree? decode).map .ofList

/-! ## Diagnostics -/

def Severity.toValue : Severity → Value
  | .error => .text "error"
  | .warning => .text "warning"

def Severity.ofTree? : Tree → Option Severity :=
  Tree.name? [("error", .error), ("warning", .warning)]

namespace Diagnostic

def toValue (diagnostic : Diagnostic) : Value :=
  .record [("severity", diagnostic.severity.toValue), ("code", .optionalText diagnostic.code),
    ("message", .text diagnostic.message), ("class", .optionalText diagnostic.className),
    ("subsystem", .optionalText diagnostic.subsystem)]

def ofTree? (tree : Tree) : Option Diagnostic := do
  let fields ← Fields.ofTree?
    [⟨"severity", []⟩, ⟨"code", []⟩, ⟨"message", []⟩, ⟨"class", []⟩, ⟨"subsystem", []⟩] tree
  let severity ← fields.required "severity" Severity.ofTree?
  let code ← fields.nullable "code" Tree.text?
  let message ← fields.required "message" Tree.text?
  let className ← fields.nullable "class" Tree.text?
  let subsystem ← fields.nullable "subsystem" Tree.text?
  some { severity, code, message, className, subsystem }

end Diagnostic

/-! ## Classes -/

def Side.toValue : Side → Value
  | .passive => .text "p"
  | .active => .text "t"
  | .superclass => .text "superclass"

def Side.ofTree? : Tree → Option Side :=
  Tree.name? [("p", .passive), ("t", .active), ("superclass", .superclass)]

namespace Identifiers

def toValue (identifiers : Identifiers) : Value :=
  .record [("groups", .record (identifiers.groups.map fun (group, members) =>
    (group.label, Value.texts members)))]

def ofTree? (tree : Tree) : Option Identifiers := do
  let fields ← Fields.ofTree? [⟨"groups", []⟩] tree
  let groups ← fields.required "groups" (Tree.table? IdGroup.ofTree? (Tree.list? Tree.text?))
  some (.ofPairs groups)

end Identifiers

namespace Navigation

def toValue (navigation : Navigation) : Value :=
  .record [("rnum", navigation.endpoint.rnum.toValue), ("class", .text navigation.endpoint.className),
    ("phrase", .optionalText navigation.endpoint.phrase), ("side", navigation.endpoint.side.toValue),
    ("rename", .optionalText navigation.rename)]

def ofTree? (tree : Tree) : Option Navigation := do
  let fields ← Fields.ofTree?
    [⟨"rnum", []⟩, ⟨"class", []⟩, ⟨"phrase", []⟩, ⟨"side", []⟩, ⟨"rename", []⟩] tree
  let rnum ← fields.required "rnum" Rnum.ofTree?
  let className ← fields.required "class" Tree.text?
  let phrase ← fields.nullable "phrase" Tree.text?
  let side ← fields.required "side" Side.ofTree?
  let rename ← fields.nullable "rename" Tree.text?
  some ⟨⟨rnum, className, phrase, side⟩, rename⟩

end Navigation

namespace AttributeType

/-- A scalar is its name and a union the list of its members. -/
def toValue : AttributeType → Value
  | .scalar name => .text name
  | .union members => Value.texts members

def ofTree? (tree : Tree) : Option AttributeType := do
  let typed ← tree.typed?
  typed.text?.map .scalar <|> (typed.list? Tree.text?).map .union

end AttributeType

namespace Resolved

namespace Subsystem

def toValue (subsystem : Subsystem) : Value :=
  .record [("name", .text subsystem.name), ("alias", .text subsystem.aliasName),
    ("domain", .optionalText subsystem.domain)]

def ofTree? (tree : Tree) : Option Subsystem := do
  let fields ← Fields.ofTree? [⟨"name", []⟩, ⟨"alias", []⟩, ⟨"domain", []⟩] tree
  let name ← fields.required "name" Tree.text?
  let aliasName ← fields.required "alias" Tree.text?
  let domain ← fields.nullable "domain" Tree.text?
  some { name, aliasName, domain }

end Subsystem

namespace Attribute

/-- An attribute without the hints that are still to be resolved. -/
def toValue (attr : Attribute) : Value :=
  .record [("name", .text attr.name), ("declared_type", .optionalText attr.scalar),
    ("declared_union", .orNull Value.texts attr.union),
    ("identifiers", .list (attr.identifiers.map IdGroup.toValue)),
    ("relationships", .list (attr.relationships.map Rnum.toValue)),
    ("union_relationships", .list (attr.unionRelationships.map Rnum.toValue)),
    ("renames", .list (attr.renames.map Rename.toValue)),
    ("ranking", .orNull Rnum.toValue attr.ranking),
    ("navigations", .list (attr.navigations.map Navigation.toValue)),
    ("resolved_type", .orNull AttributeType.toValue attr.type)]

def schema : List FieldName :=
  [⟨"name", []⟩, ⟨"declared_type", []⟩, ⟨"declared_union", []⟩, ⟨"identifiers", []⟩,
    ⟨"relationships", []⟩, ⟨"union_relationships", []⟩, ⟨"renames", []⟩, ⟨"ranking", []⟩,
    ⟨"navigations", []⟩, ⟨"resolved_type", []⟩]

def ofTree? (tree : Tree) : Option Attribute := do
  let fields ← Fields.ofTree? schema tree
  let name ← fields.required "name" Tree.text?
  let scalar ← fields.nullable "declared_type" Tree.text?
  let union ← fields.nullable "declared_union" (Tree.list? Tree.text?)
  let identifiers ← fields.required "identifiers" (Tree.list? IdGroup.ofTree?)
  let relationships ← fields.required "relationships" (Tree.list? Rnum.ofTree?)
  let unionRelationships ← fields.required "union_relationships" (Tree.list? Rnum.ofTree?)
  let renames ← fields.required "renames" (Tree.list? Rename.ofTree?)
  let ranking ← fields.nullable "ranking" Rnum.ofTree?
  let navigations ← fields.required "navigations" (Tree.list? Navigation.ofTree?)
  let type ← fields.nullable "resolved_type" AttributeType.ofTree?
  some {
    name, scalar, union, identifiers, relationships, unionRelationships, renames, ranking,
    navigations, type, hints := [] }

end Attribute

namespace Class

def toValue (cls : Class) : Value :=
  .record [("name", .text cls.name), ("number", .natural cls.number),
    ("subsystem", .text cls.subsystem),
    ("attributes", .list (cls.attributes.map Attribute.toValue)),
    ("ignored_attributes", .list (cls.ignoredAttributes.map Attribute.toValue)),
    ("identifiers", cls.identifiers.toValue)]

def ofTree? (tree : Tree) : Option Class := do
  let fields ← Fields.ofTree? [⟨"name", []⟩, ⟨"number", []⟩, ⟨"subsystem", []⟩, ⟨"attributes", []⟩,
    ⟨"ignored_attributes", []⟩, ⟨"identifiers", []⟩] tree
  let name ← fields.required "name" Tree.text?
  let number ← fields.required "number" Tree.natural32?
  let subsystem ← fields.required "subsystem" Tree.text?
  let attributes ← fields.required "attributes" (Tree.list? Attribute.ofTree?)
  let ignoredAttributes ← fields.required "ignored_attributes" (Tree.list? Attribute.ofTree?)
  let identifiers ← fields.required "identifiers" Identifiers.ofTree?
  some { name, number, subsystem, attributes, ignoredAttributes, identifiers }

end Class

/-! ## Relationships -/

namespace Relationship

def toValue (relationship : Relationship) : Value :=
  .record [("rnum", relationship.rnum.toValue), ("subsystem", .text relationship.subsystem),
    ("shape", .record relationship.shape.fields)]

def ofTree? (tree : Tree) : Option Relationship := do
  let fields ← Fields.ofTree? [⟨"rnum", []⟩, ⟨"subsystem", []⟩, ⟨"shape", []⟩] tree
  let rnum ← fields.required "rnum" Rnum.ofTree?
  let subsystem ← fields.required "subsystem" Tree.text?
  let shape ← fields.required "shape" fun shape => shape.typed?.bind Shape.ofTree?
  some { rnum, subsystem, shape }

end Relationship

end Resolved

namespace OrdinalInfo

def toValue (info : OrdinalInfo) : Value :=
  .record [("rnum", info.rnum.toValue), ("class", .text info.className),
    ("id_group", info.group.toValue), ("ranking_attribute", .text info.rankingAttribute),
    ("ascending_phrase", .text info.ascendingPhrase),
    ("descending_phrase", .text info.descendingPhrase)]

def ofTree? (tree : Tree) : Option OrdinalInfo := do
  let fields ← Fields.ofTree? [⟨"rnum", []⟩, ⟨"class", []⟩, ⟨"id_group", []⟩,
    ⟨"ranking_attribute", []⟩, ⟨"ascending_phrase", []⟩, ⟨"descending_phrase", []⟩] tree
  let rnum ← fields.required "rnum" Rnum.ofTree?
  let className ← fields.required "class" Tree.text?
  let group ← fields.required "id_group" IdGroup.ofTree?
  let rankingAttribute ← fields.required "ranking_attribute" Tree.text?
  let ascendingPhrase ← fields.required "ascending_phrase" Tree.text?
  let descendingPhrase ← fields.required "descending_phrase" Tree.text?
  some { rnum, className, group, rankingAttribute, ascendingPhrase, descendingPhrase }

end OrdinalInfo

/-! ## References -/

def ReferenceKind.toValue : ReferenceKind → Value
  | .toOne => .text "to_one"
  | .associative => .text "associative"
  | .superclass => .text "superclass"

def ReferenceKind.ofTree? : Tree → Option ReferenceKind :=
  Tree.name? [("to_one", .toOne), ("associative", .associative), ("superclass", .superclass)]

def RelationshipKind.toValue : RelationshipKind → Value
  | .binary => .text "binary"
  | .binaryReflexive => .text "binary_reflexive"
  | .generalization => .text "generalization"

def RelationshipKind.ofTree? : Tree → Option RelationshipKind :=
  Tree.name? [("binary", .binary), ("binary_reflexive", .binaryReflexive),
    ("generalization", .generalization)]

namespace Formalization

def toValue (data : Formalization) : Value :=
  .record [("formalizing_class", .text data.formalizer), ("side", data.side.toValue),
    ("id_group", data.group.toValue), ("attr_map", data.attrMap.toValue id .text)]

def ofTree? (tree : Tree) : Option Formalization := do
  let fields ← Fields.ofTree?
    [⟨"formalizing_class", []⟩, ⟨"side", []⟩, ⟨"id_group", []⟩, ⟨"attr_map", []⟩] tree
  let formalizer ← fields.required "formalizing_class" Tree.text?
  let side ← fields.required "side" Side.ofTree?
  let group ← fields.required "id_group" IdGroup.ofTree?
  let attrMap ← fields.required "attr_map" (Table.byName? Tree.text?)
  some { formalizer, side, group, attrMap }

end Formalization

namespace VariantKey

def toValue : VariantKey → Value
  | .subclass name => .choice "subclass" (.text name)
  | .phrase name => .choice "phrase" (.text name)

def ofTree? (tree : Tree) : Option VariantKey := do
  match ← tree.choice? with
  | ("subclass", content) => content.text?.map .subclass
  | ("phrase", content) => content.text?.map .phrase
  | _ => none

end VariantKey

namespace Variant

def toValue (variant : Variant) : Value :=
  .record [("key", variant.key.toValue), ("data", variant.data.toValue)]

def ofTree? (tree : Tree) : Option Variant := do
  let fields ← Fields.ofTree? [⟨"key", []⟩, ⟨"data", []⟩] tree
  let key ← fields.required "key" VariantKey.ofTree?
  let data ← fields.required "data" Formalization.ofTree?
  some { key, data }

end Variant

namespace Formalizations

def toValue : Formalizations → Value
  | .plain data => .choice "plain" data.toValue
  | .variants records => .choice "variants" (.list (records.map Variant.toValue))

def ofTree? (tree : Tree) : Option Formalizations := do
  match ← tree.choice? with
  | ("plain", content) => (Formalization.ofTree? content).map .plain
  | ("variants", content) => (content.list? Variant.ofTree?).map .variants
  | _ => none

end Formalizations

namespace Reference

def toValue (reference : Reference) : Value :=
  .record [("reference_kind", reference.kind.toValue),
    ("relationship_kind", reference.relationshipKind.toValue), ("data", reference.data.toValue)]

def ofTree? (tree : Tree) : Option Reference := do
  let fields ← Fields.ofTree? [⟨"reference_kind", []⟩, ⟨"relationship_kind", []⟩, ⟨"data", []⟩] tree
  let kind ← fields.required "reference_kind" ReferenceKind.ofTree?
  let relationshipKind ← fields.required "relationship_kind" RelationshipKind.ofTree?
  let data ← fields.required "data" Formalizations.ofTree?
  some { kind, relationshipKind, data }

end Reference

namespace ClassReferences

def toValue (references : ClassReferences) : Value :=
  .record [("relationships", Table.toValue references Rnum.text Reference.toValue)]

def ofTree? (tree : Tree) : Option ClassReferences := do
  let fields ← Fields.ofTree? [⟨"relationships", []⟩] tree
  let relationships ← fields.required "relationships" (Tree.table? Rnum.ofTree? Reference.ofTree?)
  some (Table.ofListSorted Rnum.before relationships)

end ClassReferences

namespace ReferentialTable

def toValue (table : ReferentialTable) : Value :=
  .record [("classes", table.classes.toValue id ClassReferences.toValue)]

def ofTree? (tree : Tree) : Option ReferentialTable := do
  let fields ← Fields.ofTree? [⟨"classes", []⟩] tree
  let classes ← fields.required "classes" (Table.byName? ClassReferences.ofTree?)
  some { classes }

end ReferentialTable

/-! ## Types -/

namespace UnionType

def toValue (union : UnionType) : Value :=
  .record [("members", Value.texts union.members), ("alias", .optionalText union.aliasName)]

def ofTree? (tree : Tree) : Option UnionType := do
  let fields ← Fields.ofTree? [⟨"members", []⟩, ⟨"alias", []⟩] tree
  let members ← fields.required "members" (Tree.list? Tree.text?)
  let aliasName ← fields.nullable "alias" Tree.text?
  some { members, aliasName }

end UnionType

namespace TypeTable

def toValue (table : TypeTable) : Value :=
  .record [("scalars", Value.texts table.scalars),
    ("unions", .list (table.unions.map UnionType.toValue))]

/-- Reads a type table; a scalar that is listed again is passed over. -/
def ofTree? (tree : Tree) : Option TypeTable := do
  let fields ← Fields.ofTree? [⟨"scalars", []⟩, ⟨"unions", []⟩] tree
  let scalars ← fields.required "scalars" (Tree.list? Tree.text?)
  let unions ← fields.required "unions" (Tree.list? UnionType.ofTree?)
  some { scalars := scalars.eraseDups, unions }

end TypeTable

/-! ## State models -/

namespace Outcome

def toValue : Outcome → Value
  | .transition target => .record [("outcome", .text "transition"), ("target", .text target)]
  | .ignore => .record [("outcome", .text "ignore")]
  | .cantHappen => .record [("outcome", .text "canthappen")]

/-- Whether a key is that of the label. -/
def isLabelKey (key : Tree) : Bool :=
  match key.typed? with
  | some (.text "outcome") => true
  | _ => false

/-- Reads the outcome of a label with the fields that stand beside it. -/
def ofFields? (label : String) (fields : Tree) : Option Outcome :=
  match label with
  | "transition" => do
    let fields ← Fields.ofTree? [⟨"target", []⟩] fields
    let target ← fields.required "target" Tree.text?
    some (.transition target)
  | "ignore" => unless? fields .ignore
  | "canthappen" => unless? fields .cantHappen
  | _ => none
where
  /-- Nothing may follow a label that stands alone in a list. -/
  unless? (fields : Tree) (outcome : Outcome) : Option Outcome :=
    match fields with
    | .list (_ :: _) => none
    | _ => some outcome

/-- Reads an outcome: a table with its label, or a list that starts with it. -/
def ofTree? : Tree → Option Outcome
  | .list (label :: rest) => do
    let label ← label.text?
    let rest ← Tree.typedItems? rest
    ofFields? label (.list rest)
  | .map entries => do
    match entries.filter (isLabelKey ·.1) with
    | [(_, label)] => do
      let label ← label.text?
      let rest ← Tree.typedEntries? (entries.filter (!isLabelKey ·.1))
      ofFields? label (.map rest)
    | _ => none
  | _ => none

end Outcome

def OutcomeTable.toValue (table : OutcomeTable) : Value := Table.toValue table id Outcome.toValue

namespace Creation

def toValue (creation : Creation) : Value :=
  .record [("event", .text creation.event), ("target", .text creation.target)]

def ofTree? (tree : Tree) : Option Creation := do
  let fields ← Fields.ofTree? [⟨"event", []⟩, ⟨"target", []⟩] tree
  let event ← fields.required "event" Tree.text?
  let target ← fields.required "target" Tree.text?
  some { event, target }

end Creation

namespace InitialState

def toValue (initial : InitialState) : Value :=
  .record [("creations", .list (initial.creations.map Creation.toValue)),
    ("transitions", OutcomeTable.toValue initial.transitions)]

def ofTree? (tree : Tree) : Option InitialState := do
  let fields ← Fields.ofTree? [⟨"creations", []⟩, ⟨"transitions", []⟩] tree
  let creations ← fields.required "creations" (Tree.list? Creation.ofTree?)
  let transitions ← fields.required "transitions" (Table.byName? Outcome.ofTree?)
  some { creations, transitions }

end InitialState

namespace Resolved

def StateKind.toValue : StateKind → Value
  | .normal => .text "normal"
  | .deletion => .text "deletion"

def StateKind.ofTree? : Tree → Option StateKind :=
  Tree.name? [("normal", .normal), ("deletion", .deletion)]

namespace State

def toValue (state : State) : Value :=
  .record [("name", .text state.name), ("kind", state.kind.toValue),
    ("activity", .optionalText state.activity),
    ("transitions", OutcomeTable.toValue state.transitions)]

def ofTree? (tree : Tree) : Option State := do
  let fields ← Fields.ofTree?
    [⟨"name", []⟩, ⟨"kind", []⟩, ⟨"activity", []⟩, ⟨"transitions", []⟩] tree
  let name ← fields.required "name" Tree.text?
  let kind ← fields.required "kind" StateKind.ofTree?
  let activity ← fields.nullable "activity" Tree.text?
  let transitions ← fields.required "transitions" (Table.byName? Outcome.ofTree?)
  some { name, kind, activity, transitions }

end State

namespace StateModel

def toValue (model : StateModel) : Value :=
  .record [("domain", .text model.domain), ("kind", model.owner.toValue),
    ("states", .list (model.states.map State.toValue)),
    ("events", .list (model.events.map Event.toValue)),
    ("initial", .orNull InitialState.toValue model.initial)]

def ofTree? (tree : Tree) : Option StateModel := do
  let fields ← Fields.ofTree?
    [⟨"domain", []⟩, ⟨"kind", []⟩, ⟨"states", []⟩, ⟨"events", []⟩, ⟨"initial", []⟩] tree
  let domain ← fields.required "domain" Tree.text?
  let owner ← fields.required "kind" fun owner => owner.typed?.bind Owner.ofTree?
  let states ← fields.required "states" (Tree.list? State.ofTree?)
  let events ← fields.required "events" (Tree.list? Event.ofTree?)
  let initial ← fields.nullable "initial" InitialState.ofTree?
  some { domain, owner, states, events, initial }

end StateModel

end Resolved

/-! ## The model -/

namespace Model

def toValue (model : Model) : Value :=
  .record [("subsystems", model.subsystems.toValue id Resolved.Subsystem.toValue),
    ("classes", model.classes.toValue id Resolved.Class.toValue),
    ("relationships", model.relationships.toValue Rnum.text Resolved.Relationship.toValue),
    ("referential", model.referential.toValue),
    ("ordinals", model.ordinals.toValue Rnum.text OrdinalInfo.toValue),
    ("types", model.types.toValue),
    ("state_models", .list (model.stateModels.map Resolved.StateModel.toValue)),
    ("warnings", .list (model.warnings.map Diagnostic.toValue))]

def schema : List FieldName :=
  [⟨"subsystems", []⟩, ⟨"classes", []⟩, ⟨"relationships", []⟩, ⟨"referential", []⟩,
    ⟨"ordinals", []⟩, ⟨"types", []⟩, ⟨"state_models", []⟩, ⟨"warnings", []⟩]

def ofTree? (tree : Tree) : Option Model := do
  let fields ← Fields.ofTree? schema tree
  let subsystems ← fields.required "subsystems" (Table.byName? Resolved.Subsystem.ofTree?)
  let classes ← fields.required "classes" (Table.byName? Resolved.Class.ofTree?)
  let relationships ← fields.required "relationships" (Table.byRnum? Resolved.Relationship.ofTree?)
  let referential ← fields.required "referential" ReferentialTable.ofTree?
  let ordinals ← fields.required "ordinals" (Table.byRnum? OrdinalInfo.ofTree?)
  let types ← fields.required "types" TypeTable.ofTree?
  let stateModels ← fields.required "state_models" (Tree.list? Resolved.StateModel.ofTree?)
  let warnings ← fields.required "warnings" (Tree.list? Diagnostic.ofTree?)
  some {
    subsystems, classes, relationships, referential, ordinals, types, stateModels, warnings }

end Model

end ClassModel
