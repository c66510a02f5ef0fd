import ClassModel.Declaration.Subsystem
import ClassModel.Document.Tree
import ClassModel.Document.Value

/-! # Declarations as documents

The document form of every declaration and of the options of an analysis, in both directions. Writing leaves out what is absent or
empty where reading supplies it again. A relationship, a state model and a state are open
records: the fields of their shape, their owner and their kind stand beside their own.
-/

namespace ClassModel

open Document

/-! ## Names of alternatives -/

def IdGroup.toValue (group : IdGroup) : Value := .text group.label

def IdGroup.ofTree? : Tree → Option IdGroup :=
  Tree.name? [("I", .first), ("I2", .second), ("I3", .third)]

def Multiplicity.toValue : Multiplicity → Value
  | .one => .text "1"
  | .many => .text "M"

def Multiplicity.ofTree? : Tree → Option Multiplicity := Tree.name? [("1", .one), ("M", .many)]

def EventKind.toValue : EventKind → Value
  | .normal => .text "normal"
  | .creation => .text "creation"

def EventKind.ofTree? : Tree → Option EventKind :=
  Tree.name? [("normal", .normal), ("creation", .creation)]

def Rnum.toValue (rnum : Rnum) : Value := .text rnum.text

def Rnum.ofTree? (tree : Tree) : Option Rnum := tree.text?.map Rnum.mk

/-! ## Attributes and classes -/

namespace Rename

def toValue (rename : Rename) : Value :=
  .record [("rnum", rename.rnum.toValue), ("source", .text rename.source)]

def ofTree? (tree : Tree) : Option Rename := do
  let fields ← Fields.ofTree? [⟨"rnum", []⟩, ⟨"source", []⟩] tree
  let rnum ← fields.required "rnum" Rnum.ofTree?
  let source ← fields.required "source" Tree.text?
  some { rnum, source }

end Rename

namespace NavigationHint

def toValue (hint : NavigationHint) : Value :=
  .record (Value.field? "rnum" (hint.rnum.map Rnum.toValue) ++
    Value.field? "class" (hint.target.map .text) ++
    Value.field? "phrase" (hint.phrase.map .text) ++
    Value.field? "rename" (hint.rename.map .text))

def ofTree? (tree : Tree) : Option NavigationHint := do
  let fields ← Fields.ofTree?
    [⟨"rnum", []⟩, ⟨"class", []⟩, ⟨"phrase", []⟩, ⟨"rename", ["ref_name"]⟩] tree
  let rnum ← fields.optional "rnum" Rnum.ofTree?
  let target ← fields.optional "class" Tree.text?
  let phrase ← fields.optional "phrase" Tree.text?
  let rename ← fields.optional "rename" Tree.text?
  some { rnum, target, phrase, rename }

end NavigationHint

namespace Declaration.Attribute

def toValue (attr : Attribute) : Value :=
  .record ([("name", .text attr.name)] ++
    Value.field? "type" (attr.scalar.map .text) ++
    Value.field? "union_type_members" (attr.union.map Value.texts) ++
    Value.listField "identifier_group_memberships" (attr.identifiers.map IdGroup.toValue) ++
    Value.listField "relationship_numbers" (attr.relationships.map Rnum.toValue) ++
    Value.listField "union_relationship_numbers" (attr.unionRelationships.map Rnum.toValue) ++
    Value.listField "navigation_hints" (attr.hints.map NavigationHint.toValue) ++
    Value.listField "rename" (attr.renames.map Rename.toValue) ++
    Value.field? "ranking_relationship" (attr.ranking.map Rnum.toValue))

def schema : List FieldName :=
  [⟨"name", []⟩, ⟨"type", []⟩, ⟨"union_type_members", []⟩, ⟨"identifier_group_memberships", []⟩,
    ⟨"relationship_numbers", []⟩, ⟨"union_relationship_numbers", []⟩, ⟨"navigation_hints", []⟩,
    ⟨"rename", []⟩, ⟨"ranking_relationship", []⟩]

def ofTree? (tree : Tree) : Option Attribute := do
  let fields ← Fields.ofTree? schema tree
  let name ← fields.required "name" Tree.text?
  let scalar ← fields.optional "type" Tree.text?
  let union ← fields.optional "union_type_members" (Tree.list? Tree.text?)
  let identifiers ← fields.withDefault "identifier_group_memberships" [] (Tree.list? IdGroup.ofTree?)
  let relationships ← fields.withDefault "relationship_numbers" [] (Tree.list? Rnum.ofTree?)
  let unionRelationships ←
    fields.withDefault "union_relationship_numbers" [] (Tree.list? Rnum.ofTree?)
  let hints ← fields.withDefault "navigation_hints" [] (Tree.list? NavigationHint.ofTree?)
  let renames ← fields.withDefault "rename" [] (Tree.list? Rename.ofTree?)
  let ranking ← fields.optional "ranking_relationship" Rnum.ofTree?
  some {
    name, scalar, union, identifiers, relationships, unionRelationships, hints, renames, ranking }

end Declaration.Attribute

namespace Declaration.Class

def toValue (cls : Class) : Value :=
  .record ([("name", .text cls.name), ("attributes", .list (cls.attributes.map Attribute.toValue))] ++
    Value.listField "ignored_attributes" (cls.ignoredAttributes.map Attribute.toValue) ++
    Value.field? "imported_from" (cls.importedFrom.map .text))

def schema : List FieldName :=
  [⟨"name", []⟩, ⟨"attributes", []⟩, ⟨"ignored_attributes", []⟩, ⟨"imported_from", ["import"]⟩]

def ofTree? (tree : Tree) : Option Class := do
  let fields ← Fields.ofTree? schema tree
  let name ← fields.required "name" Tree.text?
  let attributes ← fields.withDefault "attributes" [] (Tree.list? Attribute.ofTree?)
  let ignoredAttributes ← fields.withDefault "ignored_attributes" [] (Tree.list? Attribute.ofTree?)
  let importedFrom ← fields.optional "imported_from" Tree.text?
  some { name, attributes, ignoredAttributes, importedFrom }

end Declaration.Class

/-! ## Relationships -/

namespace Perspective

def toValue (perspective : Perspective) : Value :=
  .record [("class", .text perspective.className), ("phrase", .text perspective.phrase),
    ("multiplicity", perspective.multiplicity.toValue), ("conditional", .bool perspective.conditional)]

def ofTree? (tree : Tree) : Option Perspective := do
  let fields ← Fields.ofTree?
    [⟨"class", []⟩, ⟨"phrase", []⟩, ⟨"multiplicity", []⟩, ⟨"conditional", []⟩] tree
  let className ← fields.required "class" Tree.text?
  let phrase ← fields.required "phrase" Tree.text?
  let multiplicity ← fields.required "multiplicity" Multiplicity.ofTree?
  let conditional ← fields.withDefault "conditional" false Tree.bool?
  some { className, phrase, multiplicity, conditional }

end Perspective

namespace Shape

def fields : Shape → List (String × Value)
  | .association passive active associationClass =>
    [("p_side", passive.toValue), ("t_side", active.toValue)] ++
      Value.field? "association_class" (associationClass.map .text)
  | .generalization superclass subclasses =>
    [("superclass", .text superclass), ("subclasses", Value.texts subclasses)]

def association? (tree : Tree) : Option Shape := do
  let fields ← Fields.ofMap?
    [⟨"p_side", ["side_a"]⟩, ⟨"t_side", ["side_b"]⟩, ⟨"association_class", []⟩] tree
  let passive ← fields.required "p_side" Perspective.ofTree?
  let active ← fields.required "t_side" Perspective.ofTree?
  let associationClass ← fields.optional "association_class" Tree.text?
  some (.association passive active associationClass)

def generalization? (tree : Tree) : Option Shape := do
  let fields ← Fields.ofMap? [⟨"superclass", []⟩, ⟨"subclasses", []⟩] tree
  let superclass ← fields.required "superclass" Tree.text?
  let subclasses ← fields.required "subclasses" (Tree.list? Tree.text?)
  some (.generalization superclass subclasses)

/-- Reads an association or, if that fails, a generalization. -/
def ofTree? (tree : Tree) : Option Shape := association? tree <|> generalization? tree

end Shape

namespace Declaration.Relationship

def toValue (relationship : Relationship) : Value :=
  .record (("id", relationship.rnum.toValue) :: relationship.shape.fields)

def ofTree? (tree : Tree) : Option Relationship := do
  let fields ← Fields.Open.ofTree? [⟨"id", []⟩] tree
  let rnum ← fields.own.required "id" Rnum.ofTree?
  let shape ← Shape.ofTree? (.map fields.further)
  some { rnum, shape }

end Declaration.Relationship

/-! ## State models -/

namespace Parameter

def toValue (parameter : Parameter) : Value :=
  .record [("name", .text parameter.name), ("type", .text parameter.type)]

def ofTree? (tree : Tree) : Option Parameter := do
  let fields ← Fields.ofTree? [⟨"name", []⟩, ⟨"type", []⟩] tree
  let name ← fields.required "name" Tree.text?
  let type ← fields.required "type" Tree.text?
  some { name, type }

end Parameter

namespace Event

def toValue (event : Event) : Value :=
  .record [("name", .text event.name), ("signature", .list (event.signature.map Parameter.toValue)),
    ("type", event.kind.toValue)]

def ofTree? (tree : Tree) : Option Event := do
  let fields ← Fields.ofTree? [⟨"name", []⟩, ⟨"signature", []⟩, ⟨"type", []⟩] tree
  let name ← fields.required "name" Tree.text?
  let signature ← fields.withDefault "signature" [] (Tree.list? Parameter.ofTree?)
  let kind ← fields.withDefault "type" .normal EventKind.ofTree?
  some { name, signature, kind }

end Event

namespace Owner

def fields : Owner → List (String × Value)
  | .lifecycle className => [("lifecycle_class", .text className)]
  | .assigner rnum => [("assigner_relationship", rnum.toValue)]

def lifecycle? (tree : Tree) : Option Owner := do
  let fields ← Fields.ofMap? [⟨"lifecycle_class", []⟩] tree
  let className ← fields.required "lifecycle_class" Tree.text?
  some (.lifecycle className)

def assigner? (tree : Tree) : Option Owner := do
  let fields ← Fields.ofMap? [⟨"assigner_relationship", []⟩] tree
  let rnum ← fields.required "assigner_relationship" Rnum.ofTree?
  some (.assigner rnum)

def toValue (owner : Owner) : Value := .record owner.fields

/-- Reads the owner of a lifecycle or, if that fails, of an assigner. -/
def ofTree? (tree : Tree) : Option Owner := lifecycle? tree <|> assigner? tree

end Owner

namespace Declaration

namespace StateKind

def fields : StateKind → List (String × Value)
  | .creation event => [("type", .text "creation"), ("event", .text event)]
  | .normal => [("type", .text "normal")]
  | .deletion => [("type", .text "deletion")]

/-- The names of the kinds; a kind may also be given by its number. -/
def label? : Tree → Option String
  | .natural index => ["creation", "normal", "deletion"][index]?
  | tree => tree.text?

/-- Reads a kind by its label. A creation state also names its event, and the other kinds pass
over everything else. -/
def ofTree? (tree : Tree) : Option StateKind := do
  let entries ← tree.entries?
  let fields ← Fields.ofMap? [⟨"type", []⟩] tree
  match ← fields.required "type" label? with
  | "creation" => do
    let fields ← Fields.ofMap? [⟨"event", []⟩] (.map (entries.filter (·.1.text? ≠ some "type")))
    let event ← fields.required "event" Tree.text?
    some (.creation event)
  | "normal" => some .normal
  | "deletion" => some .deletion
  | _ => none

end StateKind

namespace Transition

def toValue (transition : Transition) : Value :=
  .record ([("event", .text transition.event)] ++
    Value.field? "target" (transition.target.map .text))

def ofTree? (tree : Tree) : Option Transition := do
  let fields ← Fields.ofTree? [⟨"event", []⟩, ⟨"target", []⟩] tree
  let event ← fields.required "event" Tree.text?
  let target ← fields.optional "target" Tree.text?
  some { event, target }

end Transition

namespace State

def toValue (state : State) : Value :=
  .record ([("name", .text state.name)] ++ state.kind.fields ++
    Value.field? "activity" (state.activity.map .text) ++
    [("transitions", .list (state.transitions.map Transition.toValue))])

def ofTree? (tree : Tree) : Option State := do
  let fields ← Fields.Open.ofTree? [⟨"name", []⟩, ⟨"activity", []⟩, ⟨"transitions", []⟩] tree
  let name ← fields.own.required "name" Tree.text?
  let kind ← StateKind.ofTree? (.map fields.further)
  let activity ← fields.own.optional "activity" Tree.text?
  let transitions ← fields.own.withDefault "transitions" [] (Tree.list? Transition.ofTree?)
  some { name, kind, activity, transitions }

end State

namespace StateModel

def toValue (model : StateModel) : Value :=
  .record ([("domain", .text model.domain)] ++ model.owner.fields ++
    [("states", .list (model.states.map State.toValue)),
      ("events", .list (model.events.map Event.toValue))])

def ofTree? (tree : Tree) : Option StateModel := do
  let fields ← Fields.Open.ofTree? [⟨"domain", []⟩, ⟨"states", []⟩, ⟨"events", []⟩] tree
  let domain ← fields.own.required "domain" Tree.text?
  let owner ← Owner.ofTree? (.map fields.further)
  let states ← fields.own.withDefault "states" [] (Tree.list? State.ofTree?)
  let events ← fields.own.withDefault "events" [] (Tree.list? Event.ofTree?)
  some { domain, owner, states, events }

end StateModel

/-! ## Whole documents -/

namespace Subsystem

def toValue (subsystem : Subsystem) : Value :=
  .record ([("name", .text subsystem.name)] ++
    Value.field? "alias" (subsystem.aliasName.map .text) ++
    Value.field? "domain" (subsystem.domain.map .text) ++
    [("classes", .list (subsystem.classes.map Class.toValue)),
      ("relationships", .list (subsystem.relationships.map Relationship.toValue))])

def schema : List FieldName :=
  [⟨"name", ["subsystem_name"]⟩, ⟨"alias", []⟩, ⟨"domain", []⟩, ⟨"classes", []⟩,
    ⟨"relationships", []⟩]

def ofTree? (tree : Tree) : Option Subsystem := do
  let fields ← Fields.ofTree? schema tree
  let name ← fields.required "name" Tree.text?
  let aliasName ← fields.optional "alias" Tree.text?
  let domain ← fields.optional "domain" Tree.text?
  let classes ← fields.withDefault "classes" [] (Tree.list? Class.ofTree?)
  let relationships ← fields.withDefault "relationships" [] (Tree.list? Relationship.ofTree?)
  some { name, aliasName, domain, classes, relationships }

end Subsystem

end Declaration

namespace ModelInput

def toValue (input : ModelInput) : Value :=
  .record [("subsystems", .list (input.subsystems.map Declaration.Subsystem.toValue)),
    ("state_models", .list (input.stateModels.map Declaration.StateModel.toValue))]

def ofTree? (tree : Tree) : Option ModelInput := do
  let fields ← Fields.ofTree? [⟨"subsystems", []⟩, ⟨"state_models", []⟩] tree
  let subsystems ←
    fields.withDefault "subsystems" [] (Tree.list? Declaration.Subsystem.ofTree?)
  let stateModels ←
    fields.withDefault "state_models" [] (Tree.list? Declaration.StateModel.ofTree?)
  some { subsystems, stateModels }

end ModelInput

/-! ## Options -/

def ImportPolicy.toValue : ImportPolicy → Value
  | .warn => .text "warn"
  | .deny => .text "deny"

def ImportPolicy.ofTree? : Tree → Option ImportPolicy :=
  Tree.name? [("warn", .warn), ("deny", .deny)]

namespace AnalysisOptions

def toValue (options : AnalysisOptions) : Value :=
  .record [("import_policy", options.importPolicy.toValue)]

def ofTree? (tree : Tree) : Option AnalysisOptions := do
  let fields ← Fields.ofTree? [⟨"import_policy", []⟩] tree
  let importPolicy ← fields.withDefault "import_policy" .warn ImportPolicy.ofTree?
  some { importPolicy }

end AnalysisOptions

end ClassModel
