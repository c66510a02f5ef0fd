import ClassModel.AnalysisError
import ClassModel.NameSet
import ClassModel.Resolved.Model

/-! # Ordinal relationships

The attributes that list an ordinal relationship must make up exactly one identifier group of
their class, and exactly one attribute must rank by it.
-/

namespace ClassModel

namespace OrdinalInfo

/-- The attributes of a class that list a relationship, ignored ones included. -/
def boundBy (cls : Resolved.Class) (rnum : Rnum) : List Name :=
  (cls.allAttributes.filter (·.relationships.contains rnum)).map (·.name)

/-- The attributes of a class that rank by a relationship, ignored ones included. -/
def rankedBy (cls : Resolved.Class) (rnum : Rnum) : List Name :=
  (cls.allAttributes.filter (·.ranking = some rnum)).map (·.name)

/-- The identifier groups of a class with exactly the given members. -/
def groupsOf (cls : Resolved.Class) (attrs : List Name) : List IdGroup :=
  (cls.identifiers.groups.filter fun (_, members) =>
    NameSet.ofList members = NameSet.ofList attrs).map (·.1)

/-- What is known of an ordinal relationship on a class. -/
def ofClass (relationship : Resolved.Relationship) (cls : Resolved.Class) :
    Except AnalysisError OrdinalInfo :=
  let bound := boundBy cls relationship.rnum
  match groupsOf cls bound with
  | [group] =>
    match rankedBy cls relationship.rnum with
    | [ranking] =>
      .ok {
        rnum := relationship.rnum
        className := cls.name
        group := group
        rankingAttribute := ranking
        ascendingPhrase := (relationship.phrase? .passive).getD ""
        descendingPhrase := (relationship.phrase? .active).getD "" }
    | found => .error (.ordinalRankingAttribute relationship.rnum cls.name found)
  | _ => .error (.ordinalIdentifierMismatch relationship.rnum cls.name bound)

/-- The class that an ordinal relationship is on. -/
def classOf? (classes : Table Name Resolved.Class) (relationship : Resolved.Relationship) :
    Option Resolved.Class :=
  (relationship.perspective? .passive).bind fun passive => classes.get? passive.className

/-- Adds an ordinal relationship; a relationship of another kind, or without its class, adds
nothing. -/
def enter (classes : Table Name Resolved.Class) (known : Table Rnum OrdinalInfo)
    (relationship : Resolved.Relationship) : Except AnalysisError (Table Rnum OrdinalInfo) :=
  if relationship.isOrdinal then
    match classOf? classes relationship with
    | none => .ok known
    | some cls => (ofClass relationship cls).map (known.insert relationship.rnum)
  else .ok known

end OrdinalInfo

/-- The ordinal relationships of a model, in the order of its relationships. -/
def ordinalTable (relationships : Table Rnum Resolved.Relationship)
    (classes : Table Name Resolved.Class) : Except AnalysisError (Table Rnum OrdinalInfo) :=
  relationships.values.foldlM (OrdinalInfo.enter classes) .empty

end ClassModel
