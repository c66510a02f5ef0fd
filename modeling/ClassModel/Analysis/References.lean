import ClassModel.Analysis.Matching

/-! # References

The references that the classes of a model make to each other. A relationship that an attribute
formalizes is recorded in the referential table under the class referred to; a match by an ignored
attribute only links the types of the two attributes; a match over a relationship that an
attribute chooses over gives the attribute one more choice of type.
-/

namespace ClassModel

/-- Two attributes that a match brings together. -/
structure AttributeLink where
  rnum : Rnum
  side : Side
  className : Name
  attr : Name
  targetClass : Name
  targetAttr : Name
  deriving DecidableEq, Repr

/-- Everything found about the references of one class. -/
structure ClassMatches where
  className : Name
  ignored : List Name
  /-- The matches of each relationship that the class formalizes. -/
  references : List (Rnum × List SideMatch)
  /-- The matches of each relationship that attributes choose over. -/
  choices : List (Rnum × List SideMatch)
  deriving DecidableEq

namespace ClassMatches

/-- Matches the attributes that a class has for a relationship. -/
def matchOver (classes : Table Name Resolved.Class)
    (relationships : Table Rnum Resolved.Relationship) (cls : Resolved.Class) (layout : Layout)
    (entry : Rnum × List Name) : Except AnalysisError (Rnum × List SideMatch) := do
  let (rnum, attrs) := entry
  let partition ← Partition.ofAttributes classes relationships cls layout rnum attrs
  match partition.match? (layout.renamesOver rnum) with
  | .ok found => .ok (rnum, found)
  | .error (.collision name) => .error (.badNaming rnum cls.name cls.subsystem name)
  | .error (.failure reason) =>
    .error (.unmatchedReference rnum cls.name cls.subsystem attrs reason)

/-- Matches every relationship of a class, those it formalizes first. -/
def ofClass (classes : Table Name Resolved.Class)
    (relationships : Table Rnum Resolved.Relationship) (cls : Resolved.Class) :
    Except AnalysisError ClassMatches := do
  let layout ← Layout.ofClass cls
  let references ← layout.inclusion.entries.mapM (matchOver classes relationships cls layout)
  let choices ← layout.unionInclusion.entries.mapM (matchOver classes relationships cls layout)
  .ok ⟨cls.name, cls.ignoredAttributes.map (·.name), references, choices⟩

/-- The links that one match makes. -/
def linksOf (className : Name) (rnum : Rnum) (found : SideMatch) : List AttributeLink :=
  found.assignment.entries.map fun (identifier, attr) =>
    ⟨rnum, found.side, className, attr, found.referred, identifier⟩

/-- The links of every relationship that the class formalizes. -/
def referenceLinks (found : ClassMatches) : List AttributeLink :=
  found.references.flatMap fun (rnum, sides) => sides.flatMap (linksOf found.className rnum)

/-- The links of every relationship that attributes choose over. -/
def choiceLinks (found : ClassMatches) : List AttributeLink :=
  found.choices.flatMap fun (rnum, sides) => sides.flatMap (linksOf found.className rnum)

/-- The links that stay out of the referential table. -/
def ignoredLinks (found : ClassMatches) : List AttributeLink :=
  found.referenceLinks.filter fun link => found.ignored.contains link.attr

/-- The record of one match: its assignment turned round, without ignored attributes. -/
def formalization (found : ClassMatches) (side : SideMatch) : Formalization where
  formalizer := found.className
  side := side.side
  group := side.group
  attrMap := .ofList ((side.assignment.entries.filter fun (_, attr) =>
    !found.ignored.contains attr).map fun (identifier, attr) => (attr, identifier))

end ClassMatches

/-- What the sides of a match say about the relationship. -/
def SideMatch.kinds : List SideMatch → ReferenceKind × RelationshipKind
  | [first, second] =>
    if first.side = .superclass then (.superclass, .generalization)
    else if first.referred = second.referred then (.associative, .binaryReflexive)
    else (.associative, .binary)
  | first :: _ => if first.side = .superclass then (.superclass, .generalization) else (.toOne, .binary)
  | [] => (.toOne, .binary)

/-- The key of the record of a match, for the relationships that keep several. -/
def SideMatch.key? (relationships : Table Rnum Resolved.Relationship) (className : Name) (rnum : Rnum)
    (kind : RelationshipKind) (found : SideMatch) : Option VariantKey :=
  match kind with
  | .generalization => some (.subclass className)
  | .binaryReflexive => ((relationships.get? rnum).bind (·.phrase? found.side)).map .phrase
  | .binary => none

namespace ReferentialTable

/-- Enters the records of one relationship of a class. -/
def enterMatches (relationships : Table Rnum Resolved.Relationship) (found : ClassMatches)
    (table : ReferentialTable) (entry : Rnum × List SideMatch) : ReferentialTable :=
  let (rnum, sides) := entry
  let (kind, relationshipKind) := SideMatch.kinds sides
  sides.foldl (fun table side =>
    table.record side.referred rnum kind relationshipKind
      (side.key? relationships found.className rnum relationshipKind) (found.formalization side)) table

/-- Enters the records of a class. -/
def enterClass (relationships : Table Rnum Resolved.Relationship) (table : ReferentialTable)
    (found : ClassMatches) : ReferentialTable :=
  found.references.foldl (enterMatches relationships found) table

end ReferentialTable

/-- Everything found about the references of a model. -/
structure References where
  referential : ReferentialTable
  ignoredLinks : List AttributeLink
  choiceLinks : List AttributeLink
  deriving DecidableEq

namespace References

/-- The references of a list of classes with their matches. -/
def ofMatches (relationships : Table Rnum Resolved.Relationship) (classNames : List Name)
    (found : List ClassMatches) : References where
  referential := found.foldl (ReferentialTable.enterClass relationships) (.ofClasses classNames)
  ignoredLinks := found.flatMap (·.ignoredLinks)
  choiceLinks := found.flatMap (·.choiceLinks)

/-- Matches every class and gathers the references. -/
def ofClasses (relationships : Table Rnum Resolved.Relationship)
    (classes : Table Name Resolved.Class) : Except AnalysisError References := do
  let found ← classes.values.mapM (ClassMatches.ofClass classes relationships)
  .ok (ofMatches relationships classes.keys found)

/-- The links that give two attributes one type: the recorded ones in the order of the referential
table, and then the ignored ones. -/
def typeLinks (references : References) : List AttributeLink :=
  (references.referential.records.flatMap fun (referred, rnum, data) =>
    data.attrMap.entries.map fun (attr, identifier) =>
      ⟨rnum, data.side, data.formalizer, attr, referred, identifier⟩) ++ references.ignoredLinks

end References

end ClassModel
