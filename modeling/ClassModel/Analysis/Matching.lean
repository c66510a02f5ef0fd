import ClassModel.Analysis.Partition
import ClassModel.NameSet

/-! # Identifier matching

Which attribute stands in for which identifier attribute. Every side may be referred to by any of
its identifier groups; an attribute matches an identifier attribute of the same name up to case,
and at most one identifier attribute of a side may be matched by force. The attributes bound to a
side must all be used on that side, the free ones somewhere. Of the choices of one group per side
the one that leaves fewest free attributes for force counts, and it must be the only one.
-/

namespace ClassModel

/-- Attributes by the lower-case form of the name they go by. -/
abbrev NamePool := Table Name Name

namespace NamePool

/-- The lower-case form of the name that an attribute goes by. -/
def keyOf (renames : Table Name Name) (attr : Name) : Name :=
  Text.lowercase ((renames.get? attr).getD attr)

/-- Adds an attribute; fails with the name if it is taken. -/
def add (renames : Table Name Name) (pool : NamePool) (attr : Name) : Except Name NamePool :=
  if pool.contains (keyOf renames attr) then .error (keyOf renames attr)
  else .ok (pool.insert (keyOf renames attr) attr)

/-- The pool of some attributes under their renames; fails with the first name that two share. -/
def ofAttributes (attrs : List Name) (renames : Table Name Name) : Except Name NamePool :=
  attrs.foldlM (add renames) .empty

end NamePool

/-- A side with its bound attributes by name. -/
structure SidePool where
  side : Side
  referred : Resolved.Class
  bound : NamePool
  /-- The bound attributes that carry a rename. -/
  renamed : List Name
  deriving DecidableEq

/-- The pool of a side; fails with the first name that two bound attributes share. -/
def SourceSide.pool (source : SourceSide) : Except Name SidePool := do
  let bound ← NamePool.ofAttributes source.bound source.renames
  .ok ⟨source.side, source.referred, bound, source.renames.keys⟩

/-- The free attributes by name. -/
structure FreePool where
  names : NamePool
  /-- The attributes that carry a rename. -/
  renamed : List Name
  deriving DecidableEq

/-- The identifier group chosen for a side, and the attribute that stands in for each member. -/
structure SideMatch where
  side : Side
  referred : Name
  group : IdGroup
  /-- From identifier attribute to referring attribute. -/
  assignment : Table Name Name
  deriving DecidableEq

/-- An identifier attribute that is left to be matched by a free attribute of another name. -/
structure OpenSlot where
  /-- The lower-case form of its name. -/
  key : Name
  identifier : Name
  deriving DecidableEq, Repr

/-- An identifier group that can be formed, perhaps but for one open slot. -/
structure GroupCandidate where
  found : SideMatch
  /-- The names of the free attributes in use, and that of the open slot. -/
  consumed : NameSet
  openSlot : Option OpenSlot
  deriving DecidableEq

/-- A group with its members matched by name so far. -/
structure GroupDraft where
  /-- The bound attributes not in use. -/
  remaining : NamePool
  consumed : NameSet := ∅
  assignment : Table Name Name := .empty
  unmatched : List Name := []

namespace GroupDraft

/-- Matches an identifier attribute by name, with a bound attribute if there is one. -/
def take (free : NamePool) (keyOf : Name → Name) (draft : GroupDraft) (identifier : Name) :
    GroupDraft :=
  match draft.remaining.get? (keyOf identifier) with
  | some attr =>
    { draft with
      remaining := draft.remaining.erase (keyOf identifier)
      assignment := draft.assignment.insert identifier attr }
  | none =>
    match free.get? (keyOf identifier) with
    | some attr =>
      { draft with
        consumed := draft.consumed.insert (keyOf identifier)
        assignment := draft.assignment.insert identifier attr }
    | none => { draft with unmatched := draft.unmatched ++ [identifier] }

end GroupDraft

/-- What comes of one identifier group. -/
structure GroupOutcome where
  candidate? : Option GroupCandidate
  /-- Whether the group would force an attribute that carries a rename. -/
  overridesRename : Bool := false
  deriving DecidableEq

namespace SidePool

/-- Whether an identifier attribute called id goes by the name of its class: neither the bound nor
the free attributes have the name, and no attribute of the class is called like the class. -/
def namesClassById (pool : SidePool) (free : NamePool) : Bool :=
  !free.contains "id" && !pool.bound.contains "id" &&
    !pool.referred.attributes.any fun attr =>
      Text.lowercase attr.name = Text.lowercase pool.referred.name

/-- The lower-case name under which an identifier attribute is looked for. -/
def lookupKey (pool : SidePool) (free : NamePool) (identifier : Name) : Name :=
  if pool.namesClassById free ∧ Text.lowercase identifier = "id" then
    Text.lowercase pool.referred.name
  else Text.lowercase identifier

/-- The members of a group matched by name. -/
def draft (pool : SidePool) (free : NamePool) (members : List Name) : GroupDraft :=
  members.foldl (GroupDraft.take free (pool.lookupKey free)) { remaining := pool.bound }

/-- A candidate of the side. -/
def candidate (pool : SidePool) (group : IdGroup) (assignment : Table Name Name)
    (consumed : NameSet) (openSlot : Option OpenSlot) : GroupCandidate :=
  ⟨⟨pool.side, pool.referred.name, group, assignment⟩, consumed, openSlot⟩

/-- Completes a draft. One unmatched member is matched by force, with a bound attribute that is
left over or else with a free one that is still to be found. -/
def complete (pool : SidePool) (group : IdGroup) (draft : GroupDraft) : GroupOutcome :=
  match draft.unmatched with
  | [] =>
    if draft.remaining.isEmpty then
      ⟨some (pool.candidate group draft.assignment draft.consumed none), false⟩
    else ⟨none, false⟩
  | [identifier] =>
    match draft.remaining.entries with
    | [] =>
      let key := Text.lowercase identifier
      ⟨some (pool.candidate group draft.assignment (draft.consumed.insert key)
        (some ⟨key, identifier⟩)), false⟩
    | (_, attr) :: others =>
      if attr ∈ pool.renamed then ⟨none, true⟩
      else if others.isEmpty then
        ⟨some (pool.candidate group (draft.assignment.insert identifier attr) draft.consumed none),
          false⟩
      else ⟨none, false⟩
  | _ => ⟨none, false⟩

/-- What comes of each identifier group of the referred class. -/
def outcomes (pool : SidePool) (free : NamePool) : List GroupOutcome :=
  pool.referred.identifiers.groups.map fun (group, members) =>
    pool.complete group (pool.draft free members)

end SidePool

/-- Why no matching is given. -/
inductive MatchRefusal where
  /-- Two attributes go by one name. -/
  | collision (name : Name)
  | failure (reason : MatchFailure)
  deriving DecidableEq, Repr

namespace MatchFailure

/-- The reason when nothing matches, given whether a rename stood in the way. -/
def ofOverride (overridesRename : Bool) : MatchFailure :=
  if overridesRename then .ambiguousRename else .noSolution

end MatchFailure

/-- The candidates of every side, and whether a rename stood in the way of one. -/
structure SideCandidates where
  sides : List (List GroupCandidate)
  overridesRename : Bool
  deriving DecidableEq

/-- Finds the candidates side by side; every side needs one. -/
def SideCandidates.collect (free : NamePool) :
    Bool → List (Except Name SidePool) → Except MatchRefusal SideCandidates
  | overridesRename, [] => .ok ⟨[], overridesRename⟩
  | _, .error name :: _ => .error (.collision name)
  | overridesRename, .ok pool :: rest =>
    let outcomes := pool.outcomes free
    let overridesRename := overridesRename || outcomes.any (·.overridesRename)
    let candidates := outcomes.filterMap (·.candidate?)
    if candidates.isEmpty then .error (.failure (.ofOverride overridesRename))
    else
      (collect free overridesRename rest).map fun found => { found with sides := candidates :: found.sides }

/-- Every way to choose one item from each list. -/
def choices {α : Type} : List (List α) → List (List α)
  | [] => [[]]
  | items :: rest => items.flatMap fun item => (choices rest).map (item :: ·)

/-- What comes of a choice of one candidate per side. -/
inductive Verdict where
  /-- The choice does not use what there is. -/
  | unfit
  /-- The choice would force an attribute that carries a rename. -/
  | overridesRename
  /-- The choice fits, with so many free attributes matched by force. -/
  | fits (forced : Nat) (found : List SideMatch)
  deriving DecidableEq

namespace GroupCandidate

/-- Whether the open slot is the one that lacks a free attribute. -/
def lacks (candidate : GroupCandidate) (missing : Option Name) : Bool :=
  candidate.openSlot.any fun slot => some slot.key = missing

/-- The match with the open slot filled, if it is the one that lacks a free attribute. -/
def fill (candidate : GroupCandidate) (missing : Option Name) (leftover : Option Name) : SideMatch :=
  match candidate.openSlot, leftover with
  | some slot, some attr =>
    if some slot.key = missing then
      { candidate.found with
        assignment := candidate.found.assignment.insert slot.identifier attr }
    else candidate.found
  | _, _ => candidate.found

/-- The free names that a choice uses. -/
def consumedBy (choice : List GroupCandidate) : NameSet :=
  (choice.map (·.consumed)).foldl NameSet.union ∅

/-- Judges a choice: it must use as many free names as there are, all but at most one of them. The
one left over is forced into the slot that lacks one. -/
def judge (free : FreePool) (choice : List GroupCandidate) : Verdict :=
  let consumed := consumedBy choice
  let available := NameSet.ofList free.names.keys
  let unused := available.difference consumed
  if consumed.size ≠ available.size ∨ 1 < unused.size then .unfit
  else
    let missing := (consumed.difference available).toList.head?
    let leftover := unused.toList.head?.bind free.names.get?
    if choice.any (·.lacks missing) && leftover.any (· ∈ free.renamed) then .overridesRename
    else .fits unused.size (choice.map (·.fill missing leftover))

end GroupCandidate

/-- The fitting choices that force fewest attributes so far, by the matches that they give. -/
structure Leaders where
  forced : Nat
  first : List SideMatch
  /-- The matches of the later choices that force as many. -/
  others : List (List SideMatch) := []
  deriving DecidableEq

/-- How the choices looked at so far compare. -/
structure Standing where
  leaders : Option Leaders := none
  /-- Whether a rename stood in the way. -/
  overridesRename : Bool
  deriving DecidableEq

namespace Standing

/-- Compares one more choice: it takes the lead, shares it or falls behind. -/
def note (standing : Standing) : Verdict → Standing
  | .unfit => standing
  | .overridesRename => { standing with overridesRename := true }
  | .fits forced found =>
    match standing.leaders with
    | none => { standing with leaders := some { forced, first := found } }
    | some leaders =>
      if forced < leaders.forced then { standing with leaders := some { forced, first := found } }
      else if forced = leaders.forced then
        { standing with leaders := some { leaders with others := leaders.others ++ [found] } }
      else standing

/-- The leader, if it is the only one. -/
def leader (standing : Standing) : Except MatchFailure (List SideMatch) :=
  match standing.leaders with
  | none => .error (.ofOverride standing.overridesRename)
  | some ⟨_, found, []⟩ => .ok found
  | some ⟨_, _, _ :: _⟩ => .error .multipleSources

end Standing

/-- The only best of the fitting choices. -/
def Verdict.best (overridesRename : Bool) (verdicts : List Verdict) : Except MatchFailure (List SideMatch) :=
  (verdicts.foldl Standing.note { overridesRename }).leader

/-- Matches the sides against the bound and the free attributes. -/
def matchPools (sides : List (Except Name SidePool)) (free : FreePool) :
    Except MatchRefusal (List SideMatch) :=
  match SideCandidates.collect free.names false sides with
  | .error refusal => .error refusal
  | .ok candidates =>
    let verdicts := (choices candidates.sides).map (GroupCandidate.judge free)
    (Verdict.best candidates.overridesRename verdicts).mapError .failure

/-- Matches a partition. -/
def Partition.match? (partition : Partition) (general : Table Name Name) :
    Except MatchRefusal (List SideMatch) :=
  match NamePool.ofAttributes partition.free general with
  | .error name => .error (.collision name)
  | .ok names => matchPools (partition.sources.map (·.pool)) ⟨names, general.keys⟩

end ClassModel
