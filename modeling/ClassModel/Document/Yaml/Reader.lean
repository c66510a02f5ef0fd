import ClassModel.Document.Tree
import ClassModel.Document.Yaml.ScalarReader

/-! # Reading YAML

A text that is one YAML document of block and flow collections, scalars of every style and tags of
alternatives. What stands deeper than a key or a mark belongs to it; a list below a key may stand
at the depth of the key. Directives, anchors and aliases are not read, and what is nested deeper
than 128 levels means nothing.
-/

namespace ClassModel.Document.Yaml

/-- A node that has been read. -/
structure NodeReading where
  tree : Tree
  rest : List Spot
  /-- Whether a line has ended behind the node, so that a key may start. -/
  keyAllowed : Bool

namespace NodeReading

/-- A scalar without marks as a node. -/
def ofPlain (reading : Reading) : NodeReading :=
  ⟨.plain (String.ofList reading.chars), reading.rest, reading.keyAllowed⟩

/-- A scalar with marks as a node. -/
def ofQuoted (reading : Reading) : NodeReading :=
  ⟨.quoted (String.ofList reading.chars), reading.rest, reading.keyAllowed⟩

/-- The node that stands where there is nothing. -/
def nothing (rest : List Spot) (keyAllowed : Bool) : NodeReading := ⟨.plain "", rest, keyAllowed⟩

def tag (tag : List Char) (reading : NodeReading) : NodeReading :=
  { reading with tree := .tagged (String.ofList tag) reading.tree }

end NodeReading

/-- Reads a scalar that stands in quotes or without any marks. -/
def flowScalar? (inBrackets : Bool) (floor : Nat) : List Spot → Option NodeReading
  | [] => none
  | spot :: rest =>
    if spot.char = '\'' then (singleQuotedFrom [] .none rest).map .ofQuoted
    else if spot.char = '"' then
      (doubleQuotedFrom (rest.length + 1) [] .none rest).map .ofQuoted
    else if startsPlain inBrackets (spot :: rest) then
      (plainFrom inBrackets floor [] .none (spot :: rest)).map .ofPlain
    else none

/-- Reads the name of a tag behind its mark; white space must follow it. -/
def tagName? (spots : List Spot) : Option (List Char × List Spot) :=
  let (name, rest) := spots.span fun spot => !isWhite spot.char && !isFlowIndicator spot.char
  if atWhite rest then some (name.map (·.char), rest) else none

/-! ## Flow collections -/

/-- Whether a bracket or a comma stands here. -/
def atFlowEnd : List Spot → Bool
  | [] => false
  | spot :: _ => spot.char = ',' || spot.char = ']' || spot.char = '\x7d'

mutual

/-- Reads a node inside brackets. -/
def flowNode? : Nat → Nat → List Spot → Option NodeReading
  | 0, _, _ => none
  | _, _, [] => none
  | fuel + 1, floor, spot :: rest =>
    if atDocumentEnd (spot :: rest) then none
    else if spot.char = '[' then
      (flowItems? fuel floor rest).map fun (items, rest) => ⟨.list items, rest, false⟩
    else if spot.char = '\x7b' then
      (flowEntries? fuel floor rest).map fun (entries, rest) => ⟨.map entries, rest, false⟩
    else if spot.char = '!' then
      (tagName? rest).bind fun (name, rest) =>
        (flowNode? fuel floor (skipFiller true false false rest).1).map (.tag name)
    else flowScalar? true floor (spot :: rest)

/-- Reads what follows the colon of a key inside brackets, perhaps nothing. -/
def flowValue? : Nat → Nat → List Spot → Option NodeReading
  | 0, _, _ => none
  | fuel + 1, floor, spots =>
    let (spots, _) := skipFiller true false false spots
    if atFlowEnd spots then some (.nothing spots false) else flowNode? fuel floor spots

/-- Reads an entry inside brackets: a node, or a key with its value. -/
def flowMember? : Nat → Nat → List Spot → Option (Tree × Option Tree × List Spot)
  | 0, _, _ => none
  | _, _, [] => none
  | fuel + 1, floor, spot :: rest =>
    if spot.char = '?' then
      (flowValue? fuel floor rest).bind fun key =>
        let (behind, _) := skipFiller true false false key.rest
        match behind with
        | colon :: rest =>
          if colon.char = ':' then
            (flowValue? fuel floor rest).map fun value => (key.tree, some value.tree, value.rest)
          else some (key.tree, some (.plain ""), behind)
        | [] => none
    else
      (flowNode? fuel floor (spot :: rest)).bind fun node =>
        match afterKey? true spot node.rest with
        | some rest =>
          (flowValue? fuel floor rest).map fun value => (node.tree, some value.tree, value.rest)
        | none => some (node.tree, none, node.rest)

/-- Reads the items of a list up to the closing bracket. A key with its value is a table of its own. -/
def flowItems? : Nat → Nat → List Spot → Option (List Tree × List Spot)
  | 0, _, _ => none
  | fuel + 1, floor, spots =>
    match (skipFiller true false false spots).1 with
    | [] => none
    | spot :: rest =>
      if spot.char = ']' then some ([], rest)
      else
        (flowMember? fuel floor (spot :: rest)).bind fun (key, value, rest) =>
          let item := match value with
            | some value => .map [(key, value)]
            | none => key
          match (skipFiller true false false rest).1 with
          | [] => none
          | next :: rest =>
            if next.char = ',' then
              (flowItems? fuel floor rest).map fun (items, rest) => (item :: items, rest)
            else if next.char = ']' then some ([item], rest)
            else none

/-- Reads the entries of a table up to the closing brace. A key may stand without value. -/
def flowEntries? : Nat → Nat → List Spot → Option (List (Tree × Tree) × List Spot)
  | 0, _, _ => none
  | fuel + 1, floor, spots =>
    match (skipFiller true false false spots).1 with
    | [] => none
    | spot :: rest =>
      if spot.char = '\x7d' then some ([], rest)
      else
        (flowMember? fuel floor (spot :: rest)).bind fun (key, value, rest) =>
          let entry := (key, value.getD (.plain ""))
          match (skipFiller true false false rest).1 with
          | [] => none
          | next :: rest =>
            if next.char = ',' then
              (flowEntries? fuel floor rest).map fun (entries, rest) => (entry :: entries, rest)
            else if next.char = '\x7d' then some ([entry], rest)
            else none

end

/-! ## Block collections -/

/-- What may stand where a key may stand before a colon: a scalar on one line or a flow collection. -/
def inlineNode? (floor : Nat) : List Spot → Option NodeReading
  | [] => none
  | spot :: rest =>
    if spot.char = '[' || spot.char = '\x7b' then
      flowNode? (4 * rest.length + 8) floor (spot :: rest)
    else flowScalar? false floor (spot :: rest)

/-- What comes after an entry of a block. -/
inductive BlockStep where
  /-- A further entry at the column of the block. -/
  | further (spots : List Spot)
  /-- The end of the block. -/
  | done (spots : List Spot) (keyAllowed : Bool)
  /-- Something deeper that belongs to no entry. -/
  | stray

/-- Looks for the next entry of a block at a column. -/
def nextEntry (column : Nat) (reading : NodeReading) : BlockStep :=
  match skipFiller false reading.keyAllowed false reading.rest with
  | ([], keyAllowed) => .done [] keyAllowed
  | (spot :: rest, keyAllowed) =>
    if atDocumentEnd (spot :: rest) || spot.column < column then .done (spot :: rest) keyAllowed
    else if spot.column = column then .further (spot :: rest)
    else .stray

mutual

/-- Reads a node whose lines stand at least at the column `floor`; a list may also stand at the
column `listColumn`. A block collection starts only where a key may start. -/
def blockNode? : Nat → Nat → Option Nat → Bool → List Spot → Option NodeReading
  | 0, _, _, _, _ => none
  | fuel + 1, floor, listColumn, keyAllowed, spots =>
    match skipFiller false keyAllowed false spots with
    | ([], keyAllowed) => some (.nothing [] keyAllowed)
    | (spot :: rest, keyAllowed) =>
      if atDocumentEnd (spot :: rest) then some (.nothing (spot :: rest) keyAllowed)
      else if spot.column < floor then
        if listColumn = some spot.column && atMark '-' (spot :: rest) && keyAllowed then
          blockItems? fuel spot.column true (spot :: rest)
        else some (.nothing (spot :: rest) keyAllowed)
      else if atMark '-' (spot :: rest) then
        if keyAllowed then blockItems? fuel spot.column false (spot :: rest) else none
      else if atMark '?' (spot :: rest) then
        if keyAllowed then blockEntries? fuel spot.column (spot :: rest) else none
      else if spot.char = '|' || spot.char = '>' then
        (block? (spot.char = '>') floor rest).map .ofQuoted
      else if spot.char = '!' then
        (tagName? rest).bind fun (name, rest) =>
          (blockNode? fuel floor listColumn false rest).map (.tag name)
      else
        (inlineNode? floor (spot :: rest)).bind fun node =>
          match afterKey? false spot node.rest with
          | some _ => if keyAllowed then blockEntries? fuel spot.column (spot :: rest) else none
          | none => some node

/-- Reads the items of a list at a column. A list at the column of a key ends before the next key. -/
def blockItems? : Nat → Nat → Bool → List Spot → Option NodeReading
  | 0, _, _, _ => none
  | fuel + 1, column, besideKeys, spots =>
    if atMark '-' spots then
      (blockNode? fuel (column + 1) none true spots.tail).bind fun item =>
        match nextEntry column item with
        | .stray => none
        | .done rest keyAllowed => some ⟨.list [item.tree], rest, keyAllowed⟩
        | .further rest =>
          if besideKeys && !atMark '-' rest then some ⟨.list [item.tree], rest, true⟩
          else
            (blockItems? fuel column besideKeys rest).bind fun others =>
              others.tree.items?.map fun items => { others with tree := .list (item.tree :: items) }
    else none

/-- Reads a key of a block with its value. -/
def blockMember? : Nat → Nat → List Spot → Option (Tree × NodeReading)
  | 0, _, _ => none
  | _, _, [] => none
  | fuel + 1, column, spot :: rest =>
    if atMark '?' (spot :: rest) then
      (blockNode? fuel (column + 1) (some column) true rest).bind fun key =>
        match nextEntry column key with
        | .stray => none
        | .done rest keyAllowed => some (key.tree, .nothing rest keyAllowed)
        | .further spots =>
          if atMark ':' spots then
            (blockNode? fuel (column + 1) (some column) true spots.tail).map (key.tree, ·)
          else some (key.tree, .nothing spots true)
    else
      (inlineNode? (column + 1) (spot :: rest)).bind fun key =>
        (afterKey? false spot key.rest).bind fun rest =>
          (blockNode? fuel (column + 1) (some column) false rest).map (key.tree, ·)

/-- Reads the entries of a table at a column. -/
def blockEntries? : Nat → Nat → List Spot → Option NodeReading
  | 0, _, _ => none
  | fuel + 1, column, spots =>
    (blockMember? fuel column spots).bind fun (key, value) =>
      match nextEntry column value with
      | .stray => none
      | .done rest keyAllowed => some ⟨.map [(key, value.tree)], rest, keyAllowed⟩
      | .further rest =>
        (blockEntries? fuel column rest).bind fun others =>
          others.tree.entries?.map fun entries =>
            { others with tree := .map ((key, value.tree) :: entries) }

end

/-! ## Documents -/

/-- Whether nothing but ends of the document is left. -/
def endsDocument : Nat → Bool → List Spot → Bool
  | 0, _, _ => false
  | fuel + 1, keyAllowed, spots =>
    match (skipFiller false keyAllowed false spots).1 with
    | [] => true
    | rest => atDivider '.' rest && endsDocument fuel false (rest.drop 3)

/-- How many levels of tables and lists mean something. -/
def depthLimit : Nat := 128

/-- The tree of a text that is one document. A text without any document is an empty table. -/
def read? (text : String) : Option Tree :=
  let chars := match text.toList with
    | '\ufeff' :: rest => rest
    | chars => chars
  if !chars.all isAllowed then none
  else
    let spots := locate 0 0 (normalizeBreaks chars)
    let fuel := 4 * spots.length + 8
    match (skipFiller false true false spots).1 with
    | [] => some (.map [])
    | spot :: rest =>
      let node :=
        if spot.char = '%' then none
        else if atDivider '-' (spot :: rest) then blockNode? fuel 0 none false (rest.drop 2)
        else blockNode? fuel 0 none true (spot :: rest)
      node.bind fun node =>
        if endsDocument fuel node.keyAllowed node.rest then some (node.tree.within depthLimit) else none

end ClassModel.Document.Yaml
