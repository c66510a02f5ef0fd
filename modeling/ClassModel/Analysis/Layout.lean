import ClassModel.AnalysisError
import ClassModel.Resolved.Model

/-! # Attribute layout

How the attributes of one class spread over the relationships that they formalize: which
attributes each relationship has, which of them navigate where, and what renames there are.
-/

namespace ClassModel

namespace Resolved.Attribute

/-- Whether the attribute only chooses between types over a relationship. -/
def isUnionOver (attr : Attribute) (rnum : Rnum) : Bool := attr.unionRelationships.contains rnum

/-- The relationships that the attribute formalizes: those it navigates and then those it lists,
without ordinals and without those that it only chooses over. -/
def formalizes (attr : Attribute) : List Rnum :=
  ((attr.navigations.map (·.endpoint.rnum)).filter (!attr.isUnionOver ·) ++
    attr.relationships.filter fun rnum => !rnum.isOrdinal && !attr.isUnionOver rnum).eraseDups

/-- The navigations of the attribute over a relationship. -/
def navigationsOver (attr : Attribute) (rnum : Rnum) : List Navigation :=
  attr.navigations.filter (·.endpoint.rnum = rnum)

end Resolved.Attribute

/-- The attributes of a class by relationship. -/
structure Layout where
  /-- The formalizing attributes, in the order of their declaration. -/
  inclusion : Table Rnum (List Name) := .empty
  /-- The attributes that choose between types over a relationship. -/
  unionInclusion : Table Rnum (List Name) := .empty
  navigations : Table Rnum (Table Name (List Navigation)) := .empty
  /-- The renames that hold on every side. -/
  renames : Table Rnum (Table Name Name) := .empty
  deriving DecidableEq

namespace Layout

/-- The navigations of an attribute over a relationship, none if it does not navigate there. -/
def navigationsOf (layout : Layout) (rnum : Rnum) (attr : Name) : List Navigation :=
  ((layout.navigations.get? rnum).bind (·.get? attr)).getD []

/-- The renames over a relationship. -/
def renamesOver (layout : Layout) (rnum : Rnum) : Table Name Name :=
  (layout.renames.get? rnum).getD .empty

/-- Enters where an attribute navigates over a relationship, each side at most once. -/
def addNavigations (className : Name) (attr : Resolved.Attribute) (rnum : Rnum) (layout : Layout) :
    Except AnalysisError Layout :=
  let navigations := attr.navigationsOver rnum
  if ¬(navigations.map (·.endpoint.side)).Nodup then
    .error (.duplicateNavigation rnum className attr.name)
  else if navigations.isEmpty then .ok layout
  else .ok { layout with
    navigations := layout.navigations.update rnum .empty (·.insert attr.name navigations) }

def addReference (className : Name) (attr : Resolved.Attribute) (layout : Layout) (rnum : Rnum) :
    Except AnalysisError Layout :=
  addNavigations className attr rnum
    { layout with inclusion := layout.inclusion.update rnum [] (· ++ [attr.name]) }

def addChoice (className : Name) (attr : Resolved.Attribute) (layout : Layout) (rnum : Rnum) :
    Except AnalysisError Layout :=
  addNavigations className attr rnum
    { layout with unionInclusion := layout.unionInclusion.update rnum [] fun members =>
        if members.contains attr.name then members else members ++ [attr.name] }

def addRename (className attr : Name) (layout : Layout) (rename : Rename) :
    Except AnalysisError Layout :=
  if (layout.renamesOver rename.rnum).contains attr then
    .error (.redundantRename rename.rnum className attr)
  else .ok { layout with
    renames := layout.renames.update rename.rnum .empty (·.insert attr rename.source) }

def addAttribute (className : Name) (layout : Layout) (attr : Resolved.Attribute) :
    Except AnalysisError Layout := do
  let layout ← attr.formalizes.foldlM (addReference className attr) layout
  let layout ← attr.unionRelationships.foldlM (addChoice className attr) layout
  attr.renames.foldlM (addRename className attr.name) layout

/-- The layout of a class, over its regular and its ignored attributes. -/
def ofClass (cls : Resolved.Class) : Except AnalysisError Layout :=
  cls.allAttributes.foldlM (addAttribute cls.name) {}

end Layout

end ClassModel
