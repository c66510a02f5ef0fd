import ClassModel.Analysis.Layout

/-! # Bound and free attributes

The attributes that formalize one relationship of a class, divided: those that navigate are bound
to the side they navigate to, and the others are free to be used on every side.
-/

namespace ClassModel

/-- A side that a class refers to, with the attributes bound to it. -/
structure SourceSide where
  side : Side
  referred : Resolved.Class
  bound : List Name := []
  /-- The renames in effect for the bound attributes. -/
  renames : Table Name Name := .empty
  deriving DecidableEq

/-- The attributes of one relationship by the side they are bound to. -/
structure Partition where
  sources : List SourceSide
  free : List Name
  deriving DecidableEq

namespace SourceSide

/-- Whether a navigation leads to the side. -/
def isReachedBy (source : SourceSide) (navigation : Navigation) : Bool :=
  source.side = navigation.endpoint.side && source.referred.name = navigation.endpoint.className

/-- Binds an attribute; the rename of its navigation counts before the one that holds on every
side. -/
def bind (source : SourceSide) (general : Table Name Name) (attr : Name) (navigation : Navigation) :
    SourceSide :=
  let renames :=
    match navigation.rename <|> general.get? attr with
    | some identifier => source.renames.insert attr identifier
    | none => source.renames
  { source with bound := source.bound ++ [attr], renames }

/-- Binds an attribute to the first side that its navigation leads to, if there is one. -/
def bindTo? (general : Table Name Name) (attr : Name) (navigation : Navigation) :
    List SourceSide → Option (List SourceSide)
  | [] => none
  | source :: rest =>
    if source.isReachedBy navigation then some (source.bind general attr navigation :: rest)
    else (bindTo? general attr navigation rest).map (source :: ·)

end SourceSide

namespace Partition

/-- The sides that a class refers to over a relationship, with nothing bound yet. -/
def sidesOf (classes : Table Name Resolved.Class) (relationships : Table Rnum Resolved.Relationship)
    (cls : Resolved.Class) (rnum : Rnum) : Except AnalysisError (List SourceSide) :=
  match relationships.get? rnum with
  | none => .error (.unknownReferential rnum cls.name cls.subsystem)
  | some relationship =>
    match relationship.farEnds? cls.name with
    | none => .error (.invalidReferential rnum cls.name cls.subsystem)
    | some ends =>
      ends.mapM fun (side, referred) =>
        match classes.get? referred with
        | none => .error (.unknownClassInRelationship rnum referred cls.subsystem)
        | some referred => .ok { side, referred }

/-- Binds an attribute by one of its navigations. -/
def bindNavigation (className : Name) (rnum : Rnum) (general : Table Name Name) (attr : Name)
    (partition : Partition) (navigation : Navigation) : Except AnalysisError Partition :=
  match SourceSide.bindTo? general attr navigation partition.sources with
  | none => .error (.invalidNavigation rnum className attr)
  | some sources => .ok { partition with sources }

/-- Binds an attribute by all its navigations; without any it is free. -/
def placeAttribute (className : Name) (layout : Layout) (rnum : Rnum) (partition : Partition)
    (attr : Name) : Except AnalysisError Partition :=
  match layout.navigationsOf rnum attr with
  | [] => .ok { partition with free := partition.free ++ [attr] }
  | navigations =>
    navigations.foldlM (bindNavigation className rnum (layout.renamesOver rnum) attr) partition

/-- The partition of the attributes that a class has for a relationship. -/
def ofAttributes (classes : Table Name Resolved.Class)
    (relationships : Table Rnum Resolved.Relationship) (cls : Resolved.Class) (layout : Layout)
    (rnum : Rnum) (attrs : List Name) : Except AnalysisError Partition := do
  let sources ← sidesOf classes relationships cls rnum
  attrs.foldlM (placeAttribute cls.name layout rnum) ⟨sources, []⟩

end Partition

end ClassModel
