import ClassModel.Resolved.Relationship
import ClassModel.Table

/-! # The referential table

For every class that is referred to, the table lists the relationships that formalize its
identifier: which class refers, from which side, to which identifier group, and which of its
attributes stands in for which identifier attribute. A generalization and a reflexive
association with an association class keep one such record per subclass or phrase.
-/

namespace ClassModel

inductive ReferenceKind where
  | toOne
  | associative
  | superclass
  deriving DecidableEq, Repr

inductive RelationshipKind where
  | binary
  | binaryReflexive
  | generalization
  deriving DecidableEq, Repr

/-- How one class stands in for the identifier of the class it refers to. -/
structure Formalization where
  formalizer : Name
  /-- The side that the referred class is on. -/
  side : Side
  group : IdGroup
  /-- From referring attribute to identifier attribute. -/
  attrMap : Table Name Name
  deriving DecidableEq

/-- The referring attributes in ascending order. -/
def Formalization.refAttributes (formalization : Formalization) : List Name :=
  formalization.attrMap.keys.mergeSort (· ≤ ·)

/-- What tells the records of one relationship apart. -/
inductive VariantKey where
  | subclass (name : Name)
  | phrase (name : Name)
  deriving DecidableEq, Repr

namespace VariantKey

def name : VariantKey → Name
  | .subclass name => name
  | .phrase name => name

/-- Subclasses come before phrases, each in the order of their names. -/
def before : VariantKey → VariantKey → Bool
  | .subclass left, .subclass right => left < right
  | .subclass _, .phrase _ => true
  | .phrase _, .subclass _ => false
  | .phrase left, .phrase right => left < right

end VariantKey

/-- One record of a relationship that has several. -/
structure Variant where
  key : VariantKey
  data : Formalization
  deriving DecidableEq

namespace Variant

/-- Replaces the record of a known key, and puts a new key in its place in the order. -/
def enter (key : VariantKey) (data : Formalization) : List Variant → List Variant
  | [] => [⟨key, data⟩]
  | variant :: rest =>
    if variant.key = key then ⟨key, data⟩ :: rest
    else if key.before variant.key then ⟨key, data⟩ :: variant :: rest
    else variant :: enter key data rest

end Variant

/-- The records of a relationship: a single one, or one per key in the order of the keys. -/
inductive Formalizations where
  | plain (data : Formalization)
  | variants (variants : List Variant)
  deriving DecidableEq

/-- One relationship as the class sees it whose identifier it formalizes. -/
structure Reference where
  kind : ReferenceKind
  relationshipKind : RelationshipKind
  data : Formalizations
  deriving DecidableEq

namespace Reference

def hasVariants (reference : Reference) : Bool :=
  match reference.data with
  | .plain _ => false
  | .variants _ => true

def plain? (reference : Reference) : Option Formalization :=
  match reference.data with
  | .plain data => some data
  | .variants _ => none

def variantKeys (reference : Reference) : List VariantKey :=
  match reference.data with
  | .plain _ => []
  | .variants variants => variants.map (·.key)

def variant? (reference : Reference) (key : VariantKey) : Option Formalization :=
  match reference.data with
  | .plain _ => none
  | .variants variants => (variants.find? (·.key = key)).map (·.data)

/-- Every record, plain or per key. -/
def all (reference : Reference) : List Formalization :=
  match reference.data with
  | .plain data => [data]
  | .variants variants => variants.map (·.data)

/-- Enters a record; a record that does not fit the reference is not entered. -/
def enter (reference : Reference) (key? : Option VariantKey) (data : Formalization) : Reference :=
  match reference.data, key? with
  | .variants variants, some key => { reference with data := .variants (Variant.enter key data variants) }
  | .plain _, none => { reference with data := .plain data }
  | _, _ => reference

end Reference

/-- The references to the identifier of one class, sorted by relationship number. -/
abbrev ClassReferences := Table Rnum Reference

/-- For each class the references to its identifier. -/
structure ReferentialTable where
  classes : Table Name ClassReferences
  deriving DecidableEq

namespace ReferentialTable

/-- The table without references for a list of classes. -/
def ofClasses (classNames : List Name) : ReferentialTable :=
  ⟨.ofList (classNames.map fun className => (className, .empty))⟩

/-- Enters a record. The first record of a relationship decides whether there are several. -/
def record (table : ReferentialTable) (referred : Name) (rnum : Rnum) (kind : ReferenceKind)
    (relationshipKind : RelationshipKind) (key? : Option VariantKey) (data : Formalization) :
    ReferentialTable :=
  let references := (table.classes.get? referred).getD .empty
  let fresh : Reference :=
    { kind, relationshipKind, data := if key?.isSome then .variants [] else .plain data }
  let reference := ((references.get? rnum).getD fresh).enter key? data
  ⟨table.classes.insert referred (references.insertSorted Rnum.before rnum reference)⟩

def forClass? (table : ReferentialTable) (className : Name) : Option ClassReferences :=
  table.classes.get? className

def reference? (table : ReferentialTable) (referred : Name) (rnum : Rnum) : Option Reference :=
  (table.forClass? referred).bind (·.get? rnum)

/-- Every record with the class referred to and the relationship, in the order of the table. -/
def records (table : ReferentialTable) : List (Name × Rnum × Formalization) :=
  table.classes.entries.flatMap fun (referred, references) =>
    references.entries.flatMap fun (rnum, reference) =>
      reference.all.map fun data => (referred, rnum, data)

/-- Everything that a class formalizes. -/
def formalizedBy (table : ReferentialTable) (className : Name) : List (Name × Rnum × Formalization) :=
  table.records.filter (·.2.2.formalizer = className)

end ReferentialTable

end ClassModel
