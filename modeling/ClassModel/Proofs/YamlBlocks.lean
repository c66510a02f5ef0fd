import ClassModel.Proofs.YamlNodes

/-! # Block collections are read back

The entries of a table and the items of a list are read one by one. What stands behind an entry tells
whether there is another: it is as deep as the block or less deep (`nextEntry`).
-/

namespace ClassModel.Document.Yaml

/-! ## Behind an entry -/

section NextEntry

variable {node : NodeReading} {column outer : Nat} {rest : List Char}

/-- A block ends before less deep text. -/
theorem nextEntry_done (closes : node.Closes outer rest) (starts : StartsLine outer rest)
    (last : outer < column ∨ rest = []) :
    ∃ line, nextEntry column node = .done (locate line outer rest) true := by
  obtain ⟨line, skip⟩ := closes
  refine ⟨line, ?_⟩
  cases rest with
  | nil => simp [nextEntry, skip, locate]
  | cons c others =>
    have less : outer < column := last.resolve_right (by simp)
    have goesOn := starts.inside line
    rw [locate] at skip goesOn ⊢
    simp [nextEntry, skip, less]

/-- A block goes on with text that is as deep. -/
theorem nextEntry_further (closes : node.Closes column rest) (starts : StartsLine column rest)
    (written : rest ≠ []) : ∃ line, nextEntry column node = .further (locate line column rest) := by
  obtain ⟨line, skip⟩ := closes
  obtain ⟨c, others, rfl⟩ := List.exists_cons_of_ne_nil written
  have goesOn := starts.inside line
  refine ⟨line, ?_⟩
  rw [locate] at skip goesOn ⊢
  simp [nextEntry, skip, goesOn]

end NextEntry

/-! ## Keys -/

theorem Suits.scalar_ne_nil {text : String} {style : Style} (suits : Suits text.toList style) (depth : Nat) :
    scalar depth style text ≠ [] := by
  cases suits with
  | plain plain => exact plain.written
  | singleQuoted quotable => exact List.cons_ne_nil _ _
  | doubleQuoted => exact List.cons_ne_nil _ _
  | literal broken printable => exact List.cons_ne_nil _ _

/-- A key that needs no marks stands on one line, is no block, and is not too long. -/
structure IsSimple (key : String) : Prop where
  inline : ∀ c ∈ key.toList, isBreak c = false
  flows : styleOf key ≠ .literal
  short : ∀ depth, (scalar depth (styleOf key) key).length ≤ 1024

theorem isSimple_of_isSimpleKey {key : String} (simple : isSimpleKey key = true) : IsSimple key := by
  simp only [isSimpleKey, Bool.and_eq_true, Bool.not_eq_true', List.any_eq_false, Bool.not_eq_true,
    decide_eq_true_eq] at simple
  obtain ⟨inline, small⟩ := simple
  have suits := suits_styleOf key
  refine ⟨inline, fun style => ?_, fun depth => ?_⟩
  · rw [style] at suits
    cases suits with
    | literal broken printable => exact absurd (inline '\n' broken) (by decide)
  · have short := (inline_scalar suits inline depth).2
    omega

/-- A key does not look like the line between two documents. -/
theorem startsLine_key {key : String} {style : Style} (suits : Suits key.toList style) (flows : style ≠ .literal)
    (inner depth : Nat) (rest : List Char) : StartsLine depth (scalar inner style key ++ ':' :: rest) := by
  cases suits with
  | plain plain =>
    refine ⟨?_, fun line =>
      atDocumentEnd_locate plain.marker plain.written (by rintro _ ⟨⟩; decide) line depth⟩
    obtain ⟨c, others, shape, opens⟩ := plain.opensScalar
    rw [scalar, shape]
    rintro _ ⟨⟩
    exact opens.solid
  | singleQuoted quotable => exact .cons (by decide) (by decide) _
  | doubleQuoted => exact .cons (by decide) (by decide) _
  | literal broken printable => exact absurd rfl flows

/-- A key on one line is read up to its colon, whatever stands there for a value. -/
theorem exists_inlineNode?_key {key : String} (simple : isSimpleKey key = true) (floor line depth : Nat)
    {rest : List Char} (white : ∀ c ∈ rest.head?, isWhite c = true) :
    ∃ c others node, scalar (depth + 2) (styleOf key) key ++ ':' :: rest = c :: others ∧ OpensInline c others ∧
      inlineNode? floor (locate line depth (c :: others)) = some node ∧ node.tree = Format.yaml.textTree key ∧
      afterKey? false ⟨c, line, depth⟩ node.rest =
        some (locate line (depth + (scalar (depth + 2) (styleOf key) key).length + 1) rest) := by
  have isSimple := isSimple_of_isSimpleKey simple
  have suits := suits_styleOf key
  have goesOn := (startsLine_key suits isSimple.flows (depth + 2) depth rest).inside line
  have read := flowScalar?_key suits isSimple.inline (Nat.succ_pos (depth + 1)) floor line depth white goesOn
  obtain ⟨c, others, shape, opens⟩ := suits.opensScalar isSimple.flows (depth + 2)
  have opens' : OpensScalar c (others ++ ':' :: rest) := ⟨opens.toOpensInline.append _, opens.flow⟩
  have whole : scalar (depth + 2) (styleOf key) key ++ ':' :: rest = c :: (others ++ ':' :: rest) := by
    rw [shape]
    rfl
  have colon := afterKey?_colon ⟨c, line, depth⟩ (isSimple.short (depth + 2)) white
  rw [whole, ← inlineNode?_scalar opens'] at read
  exact ⟨c, _, _, whole, opens'.toOpensInline, read, rfl, colon⟩

/-! ## Entries -/

/-- An entry of a table as it is written. -/
def entryText (depth : Nat) (key : String) (value : Value) : List Char :=
  keyText depth key ++ content (placeOfKey key) depth value

theorem entryLines_cons (depth : Nat) (key : String) (value : Value) (fields : List (String × Value)) :
    entryLines depth ((key, value) :: fields) = entryText depth key value :: entryLines depth fields := by
  rw [entryLines]
  rfl

section Entries

variable {depth outer : Nat} {key : String} {value : Value} {rest : List Char}

theorem ended_simple (simple : isSimpleKey key = true) :
    ended (entryText depth key value) outer rest =
      scalar (depth + 2) (styleOf key) key ++ ':' :: ended (content .afterKey depth value) outer rest := by
  obtain ⟨c, more, starts, -⟩ := content_starts .afterKey depth value
  rw [entryText, keyText, placeOfKey, if_pos simple, if_pos simple, ended_append _ (by simp [starts])]
  simp

theorem ended_marked (marked : isSimpleKey key = false) :
    ended (entryText depth key value) outer rest =
      '?' :: ended (content .besideMark depth (.text key)) depth
        (':' :: ended (content .besideMark depth value) outer rest) := by
  obtain ⟨c, more, starts, -⟩ := content_starts .besideMark depth value
  have written : textScalar (depth + 2) key ≠ [] := (suits_styleOf key).scalar_ne_nil (depth + 2)
  rw [entryText, keyText, placeOfKey, if_neg (by simp [marked]), if_neg (by simp [marked]),
    ended_append _ (by simp [starts]), content, ended_cons _ written]
  simp [joinLines, ended]

theorem startsLine_entry : StartsLine depth (ended (entryText depth key value) outer rest) := by
  by_cases simple : isSimpleKey key = true
  · rw [ended_simple simple]
    exact startsLine_key (suits_styleOf key) (isSimple_of_isSimpleKey simple).flows _ _ _
  · rw [ended_marked (Bool.of_not_eq_true simple)]
    exact .cons (by decide) (by decide) _

theorem white_ended_content (place : Place) (depth : Nat) (value : Value) (outer : Nat) (rest : List Char) :
    ∀ c ∈ (ended (content place depth value) outer rest).head?, isWhite c = true := by
  obtain ⟨c, more, starts, white⟩ := content_starts place depth value
  rw [starts]
  rintro _ ⟨⟩
  exact white

theorem atWhite_locate {chars : List Char} (white : ∀ c ∈ chars.head?, isWhite c = true) (line column : Nat) :
    atWhite (locate line column chars) = true := by
  cases chars with
  | nil => rfl
  | cons c rest => exact white c rfl

/-- A key on one line is read with its value. -/
theorem blockMember?_simple (simple : isSimpleKey key = true) (reads : Reads value) (less : outer ≤ depth)
    (starts : StartsLine outer rest) (done : outer = depth → ∀ line, atMark '-' (locate line outer rest) = false)
    (line fuel : Nat) (enough : 4 * (ended (entryText depth key value) outer rest).length + 1 ≤ fuel) :
    ∃ node, blockMember? (fuel + 1) depth (locate line depth (ended (entryText depth key value) outer rest)) =
        some (Format.yaml.textTree key, node) ∧ node.tree = value.treeIn .yaml ∧ node.Closes outer rest := by
  have white := white_ended_content .afterKey depth value outer rest
  have stands : Stands .afterKey depth (depth + (scalar (depth + 2) (styleOf key) key).length + 1) outer
      (some depth) rest :=
    ⟨fun place => (nomatch place), by omega, fun _ => rfl, less, starts, fun _ => done⟩
  rw [ended_simple simple] at enough ⊢
  obtain ⟨node, found, tree, closes⟩ := reads stands line fuel (by
    simp only [List.length_append, List.length_cons] at enough
    omega)
  obtain ⟨c, others, name, shape, opens, read, textTree, colon⟩ :=
    exists_inlineNode?_key simple (depth + 1) line depth white
  have question := atMark_eq_false (fun same => opens.mark (.inr same)) line depth
  refine ⟨node, ?_, tree, closes⟩
  rw [shape]
  rw [locate_cons (isBreak_eq_false opens.solid.1)] at question read ⊢
  rw [blockMember?]
  change blockNode? fuel (depth + 1) (some depth) false _ = some node at found
  simp [question, read, colon, found, textTree]

/-- A key with marks of its own is read with its value. -/
theorem blockMember?_marked (marked : isSimpleKey key = false) (reads : Reads value) (less : outer ≤ depth)
    (starts : StartsLine outer rest) (line fuel : Nat)
    (enough : 4 * (ended (entryText depth key value) outer rest).length + 1 ≤ fuel) :
    ∃ node, blockMember? (fuel + 1) depth (locate line depth (ended (entryText depth key value) outer rest)) =
        some (Format.yaml.textTree key, node) ∧ node.tree = value.treeIn .yaml ∧ node.Closes outer rest := by
  have colonStarts : StartsLine depth (':' :: ended (content .besideMark depth value) outer rest) :=
    .cons (by decide) (by decide) _
  have keyStands : Stands .besideMark depth (depth + 1) depth (some depth)
      (':' :: ended (content .besideMark depth value) outer rest) :=
    ⟨fun _ => rfl, by omega, fun _ => rfl, Nat.le_refl _, colonStarts, fun place => (nomatch place)⟩
  have stands : Stands .besideMark depth (depth + 1) outer (some depth) rest :=
    ⟨fun _ => rfl, by omega, fun _ => rfl, less, starts, fun place => (nomatch place)⟩
  rw [ended_marked marked] at enough ⊢
  rw [List.length_cons] at enough
  obtain ⟨name, read, textTree, keyCloses⟩ := Reads.text key keyStands line fuel (by omega)
  obtain ⟨below, further⟩ := nextEntry_further keyCloses colonStarts (by simp)
  obtain ⟨node, found, tree, closes⟩ := reads stands below fuel (by
    simp only [ended, List.length_append, List.length_cons] at enough ⊢
    omega)
  have question : atMark '?' (⟨'?', line, depth⟩ :: locate line (depth + 1)
      (ended (content .besideMark depth (.text key)) depth
        (':' :: ended (content .besideMark depth value) outer rest))) = true := by
    simp [atMark, atWhite_locate (white_ended_content _ _ _ _ _)]
  have colon : atMark ':' (⟨':', below, depth⟩ :: locate below (depth + 1)
      (ended (content .besideMark depth value) outer rest)) = true := by
    simp [atMark, atWhite_locate (white_ended_content _ _ _ _ _)]
  refine ⟨node, ?_, tree, closes⟩
  change blockNode? fuel (depth + 1) (some depth) true _ = some node at found
  change blockNode? fuel (depth + 1) (some depth) true _ = some name at read
  rw [locate_cons (show isBreak '?' = false by decide), blockMember?]
  rw [locate_cons (show isBreak ':' = false by decide)] at further
  simp [question, read, further, colon, found, textTree]

/-- An entry is no directive. -/
theorem head?_entry_ne : ∀ c ∈ (ended (entryText depth key value) outer rest).head?, c ≠ '%' := by
  by_cases simple : isSimpleKey key = true
  · obtain ⟨c, others, name, shape, opens, -⟩ :=
      exists_inlineNode?_key simple 0 0 depth (white_ended_content .afterKey depth value outer rest)
    rw [ended_simple simple, shape]
    rintro _ ⟨⟩
    exact opens.other.2.2.2
  · rw [ended_marked (Bool.of_not_eq_true simple)]
    rintro _ ⟨⟩
    decide

/-- A key is read with its value. -/
theorem blockMember?_entry (key : String) (reads : Reads value) (less : outer ≤ depth) (starts : StartsLine outer rest)
    (done : outer = depth → ∀ line, atMark '-' (locate line outer rest) = false) (line fuel : Nat)
    (enough : 4 * (ended (entryText depth key value) outer rest).length + 1 ≤ fuel) :
    ∃ node, blockMember? (fuel + 1) depth (locate line depth (ended (entryText depth key value) outer rest)) =
        some (Format.yaml.textTree key, node) ∧ node.tree = value.treeIn .yaml ∧ node.Closes outer rest := by
  by_cases simple : isSimpleKey key = true
  · exact blockMember?_simple simple reads less starts done line fuel enough
  · exact blockMember?_marked (Bool.of_not_eq_true simple) reads less starts line fuel enough

theorem not_atMark_entry (line : Nat) :
    atMark '-' (locate line depth (ended (entryText depth key value) outer rest)) = false := by
  by_cases simple : isSimpleKey key = true
  · obtain ⟨c, others, name, shape, opens, -⟩ :=
      exists_inlineNode?_key simple 0 line depth (white_ended_content .afterKey depth value outer rest)
    rw [ended_simple simple, shape]
    exact atMark_eq_false (fun same => opens.mark (.inl same)) line depth
  · rw [ended_marked (Bool.of_not_eq_true simple)]
    exact atMark_eq_false (fun same => absurd same (by decide)) line depth

end Entries

theorem entryText_ne_nil (depth : Nat) (key : String) (value : Value) : entryText depth key value ≠ [] := by
  obtain ⟨c, more, starts, -⟩ := content_starts (placeOfKey key) depth value
  simp [entryText, starts]

/-- A table starts with its first entry. -/
theorem exists_ended_entryLines (depth outer : Nat) (rest : List Char) (key : String) (value : Value)
    (fields : List (String × Value)) :
    ∃ inner more, ended (joinLines depth (entryLines depth ((key, value) :: fields))) outer rest =
      ended (entryText depth key value) inner more := by
  rw [entryLines_cons]
  refine exists_ended_joinLines depth _ ?_ outer rest
  cases fields with
  | nil => simp [entryLines]
  | cons next fields =>
    obtain ⟨nextKey, nextValue⟩ := next
    simp [entryLines_cons, entryText_ne_nil]

/-- The entries of a table are read one by one up to less deep text. -/
theorem blockEntries?_entryLines {depth outer : Nat} {rest : List Char} (less : outer ≤ depth)
    (starts : StartsLine outer rest) (last : outer < depth ∨ rest = []) (key : String) {value : Value}
    {fields : List (String × Value)} (first : Reads value) (others : ∀ field ∈ fields, Reads field.2)
    (line fuel : Nat)
    (enough : 4 * (ended (joinLines depth (entryLines depth ((key, value) :: fields))) outer rest).length + 3 ≤ fuel) :
    ∃ node, blockEntries? fuel depth
        (locate line depth (ended (joinLines depth (entryLines depth ((key, value) :: fields))) outer rest)) =
        some node ∧
      node.tree = .map (Value.fieldTrees .yaml ((key, value) :: fields)) ∧ node.Closes outer rest := by
  induction fields generalizing key value line fuel with
  | nil =>
    obtain ⟨fuel, rfl⟩ : ∃ further, fuel = further + 1 + 1 := ⟨fuel - 2, by omega⟩
    have done : outer = depth → ∀ line, atMark '-' (locate line outer rest) = false := by
      intro same line
      obtain rfl := last.resolve_left (by omega)
      rfl
    rw [entryLines_cons, entryLines, joinLines] at enough ⊢
    obtain ⟨node, read, tree, closes⟩ := blockMember?_entry key first less starts done line fuel (by omega)
    obtain ⟨below, ends⟩ := nextEntry_done closes starts last
    refine ⟨⟨.map [(Format.yaml.textTree key, node.tree)], locate below outer rest, true⟩, ?_, ?_,
      below, starts.skipFiller false true below outer⟩
    · rw [blockEntries?, read]
      simp [ends]
    · rw [tree, Value.fieldTrees, Value.fieldTrees]
  | cons next fields ih =>
    obtain ⟨fuel, rfl⟩ : ∃ further, fuel = further + 1 + 1 := ⟨fuel - 2, by omega⟩
    obtain ⟨nextKey, nextValue⟩ := next
    have shape : ended (joinLines depth (entryLines depth ((key, value) :: (nextKey, nextValue) :: fields))) outer
        rest = ended (entryText depth key value) depth
          (ended (joinLines depth (entryLines depth ((nextKey, nextValue) :: fields))) outer rest) := by
      rw [entryLines_cons, entryLines_cons, ended_joinLines _ _ (entryText_ne_nil _ _ _)]
    obtain ⟨inner, more, opens⟩ := exists_ended_entryLines depth outer rest nextKey nextValue fields
    rw [shape] at enough ⊢
    have shorter := length_lt_ended (entryText_ne_nil depth key value) depth
      (ended (joinLines depth (entryLines depth ((nextKey, nextValue) :: fields))) outer rest)
    obtain ⟨node, read, tree, closes⟩ := blockMember?_entry key first (Nat.le_refl depth)
      (opens ▸ startsLine_entry) (fun _ line => opens ▸ not_atMark_entry line) line fuel (by omega)
    obtain ⟨below, further⟩ := nextEntry_further closes (opens ▸ startsLine_entry)
      (opens ▸ ended_ne_nil (entryText_ne_nil _ _ _) _ _)
    have nextReads : Reads nextValue := others (nextKey, nextValue) List.mem_cons_self
    obtain ⟨table, found, tables, closes⟩ := ih nextKey nextReads
      (fun field member => others field (List.mem_cons_of_mem _ member)) below (fuel + 1) (by omega)
    refine ⟨{ table with tree := .map (Value.fieldTrees .yaml ((key, value) :: (nextKey, nextValue) :: fields)) },
      ?_, rfl, closes⟩
    rw [blockEntries?, read]
    simp only [Option.bind_some, further, found, tables]
    rw [Value.fieldTrees, tree]
    rfl

/-! ## Items -/

/-- An item of a list as it is written. -/
def itemText (depth : Nat) (item : Value) : List Char := '-' :: content .besideMark depth item

theorem itemLines_cons (depth : Nat) (item : Value) (items : List Value) :
    itemLines depth (item :: items) = itemText depth item :: itemLines depth items := by
  rw [itemLines]
  rfl

section Items

variable {depth outer : Nat} {item : Value} {rest : List Char}

theorem itemText_ne_nil (depth : Nat) (item : Value) : itemText depth item ≠ [] := List.cons_ne_nil _ _

theorem ended_itemText :
    ended (itemText depth item) outer rest = '-' :: ended (content .besideMark depth item) outer rest := by
  obtain ⟨c, more, starts, -⟩ := content_starts .besideMark depth item
  exact ended_cons '-' (by simp [starts]) outer rest

theorem locate_itemText (line column : Nat) :
    locate line column (ended (itemText depth item) outer rest) = ⟨'-', line, column⟩ ::
      locate line (column + 1) (ended (content .besideMark depth item) outer rest) := by
  rw [ended_itemText, locate_cons (show isBreak '-' = false by decide)]

theorem atMark_item (line column : Nat) :
    atMark '-' (locate line column (ended (itemText depth item) outer rest)) = true := by
  rw [locate_itemText]
  simp [atMark, atWhite_locate (white_ended_content _ _ _ _ _)]

theorem startsLine_item (column : Nat) : StartsLine column (ended (itemText depth item) outer rest) := by
  refine ⟨?_, fun line => ?_⟩
  · rw [ended_itemText]
    rintro _ ⟨⟩
    decide
  · rw [ended_itemText]
    have single : startsLikeMarker ['-'] = false := rfl
    refine atDocumentEnd_locate single (by simp) (fun c head => ?_) line column
    have white := white_ended_content _ _ _ _ _ c head
    constructor <;> rintro rfl <;> exact absurd white (by decide)

/-- A list starts with its first item. -/
theorem exists_ended_itemLines (depth outer : Nat) (rest : List Char) (item : Value) (items : List Value) :
    ∃ inner more, ended (joinLines depth (itemLines depth (item :: items))) outer rest =
      ended (itemText depth item) inner more := by
  rw [itemLines_cons]
  refine exists_ended_joinLines depth _ ?_ outer rest
  cases items with
  | nil => simp [itemLines]
  | cons next items => simp [itemLines_cons, itemText_ne_nil]

/-- What stands behind the mark of an item is read as its value. -/
theorem exists_blockNode?_item (reads : Reads item) (less : outer ≤ depth) (starts : StartsLine outer rest)
    (line fuel : Nat) (enough : 4 * (ended (itemText depth item) outer rest).length ≤ fuel) :
    ∃ node, blockNode? fuel (depth + 1) none true
        (locate line depth (ended (itemText depth item) outer rest)).tail = some node ∧
      node.tree = item.treeIn .yaml ∧ node.Closes outer rest := by
  have stands : Stands .besideMark depth (depth + 1) outer none rest :=
    ⟨fun _ => rfl, by omega, fun place => (nomatch place), less, starts, fun place => (nomatch place)⟩
  rw [ended_itemText, List.length_cons] at enough
  rw [locate_itemText]
  exact reads stands line fuel (by omega)

/-- The items of a list are read one by one. A list at the column of a key ends before the next key. -/
theorem blockItems?_itemLines {besideKeys : Bool} (less : outer ≤ depth) (starts : StartsLine outer rest)
    (last : outer = depth → besideKeys = true ∧ ∀ line, atMark '-' (locate line outer rest) = false)
    {item : Value} {items : List Value} (first : Reads item) (others : ∀ item ∈ items, Reads item)
    (line fuel : Nat)
    (enough : 4 * (ended (joinLines depth (itemLines depth (item :: items))) outer rest).length + 1 ≤ fuel) :
    ∃ node, blockItems? fuel depth besideKeys
        (locate line depth (ended (joinLines depth (itemLines depth (item :: items))) outer rest)) = some node ∧
      node.tree = .list (Value.itemTrees .yaml (item :: items)) ∧ node.Closes outer rest := by
  obtain ⟨fuel, rfl⟩ := Nat.exists_eq_add_one_of_ne_zero (show fuel ≠ 0 by omega)
  induction items generalizing item line fuel with
  | nil =>
    rw [itemLines_cons, itemLines, joinLines] at enough ⊢
    obtain ⟨node, read, tree, closes⟩ := exists_blockNode?_item first less starts line fuel (by omega)
    have ends : ∃ below, nextEntry depth node = .done (locate below outer rest) true ∨
        nextEntry depth node = .further (locate below outer rest) ∧ besideKeys = true ∧
          atMark '-' (locate below outer rest) = false := by
      by_cases done : outer < depth ∨ rest = []
      · obtain ⟨below, ends⟩ := nextEntry_done closes starts done
        exact ⟨below, .inl ends⟩
      · obtain ⟨deep, written⟩ := not_or.mp done
        obtain rfl : outer = depth := by omega
        obtain ⟨below, further⟩ := nextEntry_further closes starts written
        exact ⟨below, .inr ⟨further, (last rfl).1, (last rfl).2 below⟩⟩
    obtain ⟨below, ends⟩ := ends
    refine ⟨⟨.list [node.tree], locate below outer rest, true⟩, ?_, ?_, below,
      starts.skipFiller false true below outer⟩
    · rw [blockItems?, if_pos (atMark_item line depth), read]
      rcases ends with ends | ⟨further, beside, other⟩
      · simp [ends]
      · simp [further, beside, other]
    · rw [tree, Value.itemTrees, Value.itemTrees]
  | cons next items ih =>
    have shape : ended (joinLines depth (itemLines depth (item :: next :: items))) outer rest =
        ended (itemText depth item) depth
          (ended (joinLines depth (itemLines depth (next :: items))) outer rest) := by
      rw [itemLines_cons, itemLines_cons, ended_joinLines _ _ (itemText_ne_nil _ _)]
    obtain ⟨inner, more, opens⟩ := exists_ended_itemLines depth outer rest next items
    rw [shape] at enough ⊢
    have shorter := length_lt_ended (itemText_ne_nil depth item) depth
      (ended (joinLines depth (itemLines depth (next :: items))) outer rest)
    have nextStarts : StartsLine depth (ended (joinLines depth (itemLines depth (next :: items))) outer rest) :=
      opens ▸ startsLine_item depth
    obtain ⟨node, read, tree, closes⟩ := exists_blockNode?_item first (Nat.le_refl depth) nextStarts line fuel
      (by omega)
    obtain ⟨below, further⟩ := nextEntry_further closes nextStarts (opens ▸ ended_ne_nil (itemText_ne_nil _ _) _ _)
    obtain ⟨fuel, rfl⟩ := Nat.exists_eq_add_one_of_ne_zero (show fuel ≠ 0 by omega)
    obtain ⟨list, found, trees, closes⟩ := ih (others next List.mem_cons_self)
      (fun other member => others other (List.mem_cons_of_mem _ member)) below fuel (by omega)
    have again : atMark '-' (locate below depth
        (ended (joinLines depth (itemLines depth (next :: items))) outer rest)) = true :=
      opens ▸ atMark_item below depth
    refine ⟨{ list with tree := .list (Value.itemTrees .yaml (item :: next :: items)) }, ?_, rfl, closes⟩
    rw [blockItems?, if_pos (atMark_item line depth), read]
    simp only [Option.bind_some, further, again, Bool.not_true, Bool.and_false, Bool.false_eq_true, ↓reduceIte,
      found, trees]
    rw [Value.itemTrees, tree]
    rfl

end Items

/-! ## Collections as values -/

/-- What stands before a collection leads to its depth. -/
theorem blockNode?_opening {place : Place} {column depth : Nat} (beside : place = .besideMark → column + 1 = depth)
    (line : Nat) (chars : List Char) :
    ∃ below, ∀ fuel floor listColumn, blockNode? fuel floor listColumn (place = .besideMark)
        (locate line column (place.opening depth ++ chars)) =
      blockNode? fuel floor listColumn true (locate below depth chars) := by
  by_cases marked : place = .besideMark
  · refine ⟨line, fun fuel floor listColumn => ?_⟩
    rw [← beside marked, Place.opening, if_pos marked, List.singleton_append, blockNode?_space]
    simp [marked]
  · refine ⟨line + 1, fun fuel floor listColumn => ?_⟩
    rw [Place.opening, if_neg marked, blockNode?_newline]

/-- A table starts where its first key stands. -/
theorem blockNode?_entry {floor depth : Nat} (deep : floor ≤ depth) (fuel : Nat) (listColumn : Option Nat)
    (line outer : Nat) (rest : List Char) (key : String) (value : Value) :
    blockNode? (fuel + 1) floor listColumn true (locate line depth (ended (entryText depth key value) outer rest)) =
      blockEntries? fuel depth (locate line depth (ended (entryText depth key value) outer rest)) := by
  have starts : StartsLine depth (ended (entryText depth key value) outer rest) := startsLine_entry
  by_cases simple : isSimpleKey key = true
  · obtain ⟨c, others, name, shape, opens, read, -, colon⟩ :=
      exists_inlineNode?_key simple floor line depth (white_ended_content .afterKey depth value outer rest)
    rw [ended_simple simple, shape] at starts ⊢
    rw [blockNode?_inline opens starts deep, read]
    simp [colon]
  · rw [ended_marked (Bool.of_not_eq_true simple)] at starts ⊢
    have skip := starts.skipFiller false true line depth
    have goesOn := starts.inside line
    have white := white_ended_content .besideMark depth (.text key) depth
      (':' :: ended (content .besideMark depth value) outer rest)
    rw [blockNode?, skip]
    rw [locate_cons (show isBreak '?' = false by decide)] at goesOn ⊢
    simp [goesOn, Nat.not_lt.mpr deep, atMark, atWhite_locate white]

/-- A table is read where its first key stands. -/
theorem exists_blockNode?_entries {floor depth outer : Nat} {rest : List Char} (deep : floor ≤ depth)
    (less : outer ≤ depth) (starts : StartsLine outer rest) (last : outer < depth ∨ rest = [])
    {field : String × Value} {fields : List (String × Value)} (each : ∀ other ∈ field :: fields, Reads other.2)
    (listColumn : Option Nat) (line fuel : Nat)
    (enough : 4 * (ended (joinLines depth (entryLines depth (field :: fields))) outer rest).length + 4 ≤ fuel) :
    ∃ node, blockNode? fuel floor listColumn true
        (locate line depth (ended (joinLines depth (entryLines depth (field :: fields))) outer rest)) = some node ∧
      node.tree = (Value.record (field :: fields)).treeIn .yaml ∧ node.Closes outer rest := by
  obtain ⟨fuel, rfl⟩ := Nat.exists_eq_add_one_of_ne_zero (show fuel ≠ 0 by omega)
  obtain ⟨first, others⟩ := List.forall_mem_cons.mp each
  obtain ⟨key, value⟩ := field
  have first : Reads value := first
  obtain ⟨inner, more, entry⟩ := exists_ended_entryLines depth outer rest key value fields
  obtain ⟨node, read, tree, closes⟩ :=
    blockEntries?_entryLines less starts last key first others line fuel (by omega)
  refine ⟨node, ?_, tree, closes⟩
  rw [entry, blockNode?_entry deep, ← entry, read]

/-- A list starts where its first mark stands, which may be the column of a key. -/
theorem blockNode?_item {floor depth : Nat} {listColumn : Option Nat} (deep : depth < floor → listColumn = some depth)
    (fuel line outer : Nat) (rest : List Char) (item : Value) :
    blockNode? (fuel + 1) floor listColumn true (locate line depth (ended (itemText depth item) outer rest)) =
      blockItems? fuel depth (depth < floor) (locate line depth (ended (itemText depth item) outer rest)) := by
  have starts : StartsLine depth (ended (itemText depth item) outer rest) := startsLine_item depth
  have skip := starts.skipFiller false true line depth
  have goesOn := starts.inside line
  have mark : atMark '-' (locate line depth (ended (itemText depth item) outer rest)) = true := atMark_item line depth
  rw [blockNode?, skip]
  rw [locate_itemText] at goesOn mark ⊢
  by_cases less : depth < floor
  · simp [goesOn, less, deep less, mark]
  · simp [goesOn, less, mark]

/-- A list is read where its first mark stands. -/
theorem exists_blockNode?_items {floor depth outer : Nat} {rest : List Char} {listColumn : Option Nat}
    (deep : depth < floor → listColumn = some depth) (less : outer ≤ depth) (starts : StartsLine outer rest)
    (last : outer = depth → depth < floor ∧ ∀ line, atMark '-' (locate line outer rest) = false)
    {item : Value} {items : List Value} (each : ∀ other ∈ item :: items, Reads other) (line fuel : Nat)
    (enough : 4 * (ended (joinLines depth (itemLines depth (item :: items))) outer rest).length + 4 ≤ fuel) :
    ∃ node, blockNode? fuel floor listColumn true
        (locate line depth (ended (joinLines depth (itemLines depth (item :: items))) outer rest)) = some node ∧
      node.tree = (Value.list (item :: items)).treeIn .yaml ∧ node.Closes outer rest := by
  obtain ⟨fuel, rfl⟩ := Nat.exists_eq_add_one_of_ne_zero (show fuel ≠ 0 by omega)
  obtain ⟨first, others⟩ := List.forall_mem_cons.mp each
  obtain ⟨inner, more, mark⟩ := exists_ended_itemLines depth outer rest item items
  obtain ⟨node, read, tree, closes⟩ := blockItems?_itemLines less starts
    (fun same => ⟨decide_eq_true (last same).1, (last same).2⟩) first others line fuel (by omega)
  refine ⟨node, ?_, tree, closes⟩
  rw [mark, blockNode?_item deep, ← mark, read]

theorem Reads.record {fields : List (String × Value)} (each : ∀ field ∈ fields, Reads field.2) :
    Reads (.record fields) := by
  cases fields with
  | nil => exact .emptyRecord
  | cons field fields =>
    intro place depth column outer listColumn rest stands line fuel enough
    have written : joinLines (depth + 2) (entryLines (depth + 2) (field :: fields)) ≠ [] := by
      rw [entryLines_cons]
      exact joinLines_ne_nil (entryText_ne_nil _ _ _) _ _
    rw [content, ended_append _ written] at enough ⊢
    have beside : place = .besideMark → column + 1 = depth + 2 := fun beside => by rw [stands.beside beside]
    obtain ⟨below, opens⟩ := blockNode?_opening beside line
      (ended (joinLines (depth + 2) (entryLines (depth + 2) (field :: fields))) outer rest)
    have less := stands.less
    rw [opens]
    rw [List.length_append] at enough
    exact exists_blockNode?_entries (by omega) (by omega) stands.starts (by omega) each listColumn below fuel
      (by omega)

theorem Reads.list {items : List Value} (each : ∀ item ∈ items, Reads item) : Reads (.list items) := by
  cases items with
  | nil => exact .emptyList
  | cons item items =>
    intro place depth column outer listColumn rest stands line fuel enough
    have written : joinLines (place.listDepth depth) (itemLines (place.listDepth depth) (item :: items)) ≠ [] := by
      rw [itemLines_cons]
      exact joinLines_ne_nil (itemText_ne_nil _ _) _ _
    rw [content, ended_append _ written] at enough ⊢
    have beside : place = .besideMark → column + 1 = place.listDepth depth := by
      rintro rfl
      rw [stands.beside rfl]
      rfl
    obtain ⟨below, opens⟩ := blockNode?_opening beside line
      (ended (joinLines (place.listDepth depth) (itemLines (place.listDepth depth) (item :: items))) outer rest)
    have less := stands.less
    rw [opens]
    rw [List.length_append] at enough
    by_cases key : place = .afterKey
    · have same : place.listDepth depth = depth := if_pos key
      rw [same] at enough ⊢
      exact exists_blockNode?_items (fun _ => stands.list key) less stands.starts
        (fun same => ⟨Nat.lt_succ_self _, stands.done key same⟩) each below fuel (by omega)
    · have deeper : place.listDepth depth = depth + 2 := if_neg key
      rw [deeper] at enough ⊢
      exact exists_blockNode?_items (by omega) (by omega) stands.starts (by omega) each below fuel (by omega)

/-- Every value that fits is read. -/
theorem reads_of_fits {depth : Nat} {value : Value} (fits : value.Fits depth) : Reads value := by
  induction fits with
  | null => exact .null
  | bool => exact .bool _
  | natural small => exact .natural _
  | text => exact .text _
  | list _ each => exact .list each
  | record _ each => exact .record each
  | choice word _ content => exact .choice word content

end ClassModel.Document.Yaml
