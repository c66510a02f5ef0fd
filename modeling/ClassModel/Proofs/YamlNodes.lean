import ClassModel.Proofs.YamlStyles

/-! # Nodes are read where they stand

A value is read wherever it stands: behind a key, a mark or a tag, and for whatever less deep text
follows it (`Reads`). Here are the values that are written on the line of their key or mark.
-/

namespace ClassModel.Document.Yaml

/-! ## The start of a node -/

/-- A text opens a node that is no block: it starts with no mark of one. -/
structure OpensInline (c : Char) (others : List Char) : Prop where
  solid : isWhite c = false ∧ c ≠ '#'
  other : c ≠ '|' ∧ c ≠ '>' ∧ c ≠ '!' ∧ c ≠ '%'
  mark : c = '-' ∨ c = '?' → ∃ d more, others = d :: more ∧ isWhite d = false

theorem OpensInline.append {c : Char} {others : List Char} (opens : OpensInline c others) (rest : List Char) :
    OpensInline c (others ++ rest) where
  solid := opens.solid
  other := opens.other
  mark mark := by
    obtain ⟨d, more, rfl, dark⟩ := opens.mark mark
    exact ⟨d, more ++ rest, rfl, dark⟩

/-- A text opens a scalar that is no block. -/
structure OpensScalar (c : Char) (others : List Char) : Prop extends OpensInline c others where
  flow : c ≠ '[' ∧ c ≠ '\x7b'

theorem IsPlain.opensScalar {chars : List Char} (plain : IsPlain chars) :
    ∃ c others, chars = c :: others ∧ OpensScalar c others := by
  obtain ⟨c, others, rfl, dark, indicator, marks⟩ := plain.opening
  have other : ∀ d, isIndicator d = true → c ≠ d := by
    rintro d mark rfl
    rw [mark] at indicator
    cases indicator
  refine ⟨c, others, rfl, ⟨⟨dark, other _ (by decide)⟩, ⟨other _ (by decide), other _ (by decide),
    other _ (by decide), other _ (by decide)⟩, fun mark => marks ?_⟩, other _ (by decide), other _ (by decide)⟩
  rcases mark with dash | question
  · exact .inl dash
  · exact .inr (.inl question)

theorem Suits.opensScalar {text : String} {style : Style} (suits : Suits text.toList style)
    (flows : style ≠ .literal) (depth : Nat) :
    ∃ c others, scalar depth style text = c :: others ∧ OpensScalar c others := by
  cases suits with
  | plain plain => exact plain.opensScalar
  | singleQuoted quotable => exact ⟨'\'', _, rfl, ⟨by decide, by decide, by simp⟩, by decide⟩
  | doubleQuoted => exact ⟨'"', _, rfl, ⟨by decide, by decide, by simp⟩, by decide⟩
  | literal broken printable => exact absurd rfl flows

section Nodes

variable {fuel floor : Nat} {listColumn : Option Nat} {keyAllowed : Bool} {line column : Nat}

/-- What is skipped before a node does not count. -/
theorem blockNode?_of_skipFiller {other : Bool} {spots others : List Spot}
    (same : skipFiller false keyAllowed false spots = skipFiller false other false others) :
    blockNode? fuel floor listColumn keyAllowed spots = blockNode? fuel floor listColumn other others := by
  cases fuel <;> rw [blockNode?, blockNode?]
  rw [same]

theorem blockNode?_space (chars : List Char) :
    blockNode? fuel floor listColumn keyAllowed (locate line column (' ' :: chars)) =
      blockNode? fuel floor listColumn keyAllowed (locate line (column + 1) chars) :=
  blockNode?_of_skipFiller (skipFiller_spaces false keyAllowed 1 line column chars)

theorem blockNode?_newline (depth : Nat) (chars : List Char) :
    blockNode? fuel floor listColumn keyAllowed (locate line column (newline depth ++ chars)) =
      blockNode? fuel floor listColumn true (locate (line + 1) depth chars) := by
  refine blockNode?_of_skipFiller ?_
  rw [locate_newline, skipFiller]
  simp only [isBreak_newline, ↓reduceIte, Bool.not_false, Bool.or_true]
  rw [skipFiller_spaces, Nat.zero_add]

theorem atMark_eq_false {mark c : Char} {others : List Char}
    (follows : c = mark → ∃ d more, others = d :: more ∧ isWhite d = false) (line column : Nat) :
    atMark mark (locate line column (c :: others)) = false := by
  by_cases same : c = mark
  · obtain ⟨d, more, rfl, dark⟩ := follows same
    have inside : atWhite (locate line (column + 1) (d :: more)) = false := dark
    have other : atWhite (locate (line + 1) 0 (d :: more)) = false := dark
    rw [locate]
    split <;> simp [atMark, inside, other]
  · simp [locate, atMark, same]

/-- What stands on one line is a node, or the key of the first entry of a table. -/
theorem blockNode?_inline {c : Char} {others : List Char} (opens : OpensInline c others)
    (starts : StartsLine column (c :: others)) (deep : floor ≤ column) :
    blockNode? (fuel + 1) floor listColumn keyAllowed (locate line column (c :: others)) =
      (inlineNode? floor (locate line column (c :: others))).bind fun node =>
        if (afterKey? false ⟨c, line, column⟩ node.rest).isSome then
          if keyAllowed then blockEntries? fuel column (locate line column (c :: others)) else none
        else some node := by
  have skip := starts.skipFiller false keyAllowed line column
  have goesOn := starts.inside line
  have dash := atMark_eq_false (fun same => opens.mark (.inl same)) line column
  have question := atMark_eq_false (fun same => opens.mark (.inr same)) line column
  rw [blockNode?, skip]
  rw [locate_cons (isBreak_eq_false opens.solid.1)] at goesOn dash question ⊢
  simp only [goesOn, dash, question, opens.other, Nat.not_lt.mpr deep, Bool.false_eq_true, ↓reduceIte,
    Bool.or_false, decide_false]
  refine congrArg _ (funext fun node => ?_)
  cases afterKey? false ⟨c, line, column⟩ node.rest <;> rfl

theorem inlineNode?_scalar {c : Char} {others : List Char} (opens : OpensScalar c others) (floor line column : Nat) :
    inlineNode? floor (locate line column (c :: others)) =
      flowScalar? false floor (locate line column (c :: others)) := by
  rw [locate_cons (isBreak_eq_false opens.solid.1)]
  simp [inlineNode?, opens.flow]

/-- An exclamation mark starts a tag. -/
theorem blockNode?_tag (deep : floor ≤ column + 1) (chars : List Char) :
    blockNode? (fuel + 1) floor listColumn keyAllowed (locate line (column + 1) ('!' :: chars)) =
      (tagName? (locate line (column + 1 + 1) chars)).bind fun (name, rest) =>
        (blockNode? fuel floor listColumn false rest).map (.tag name) := by
  have starts : StartsLine (column + 1) ('!' :: chars) := .cons (by decide) (by decide) chars
  have skip := starts.skipFiller false keyAllowed line (column + 1)
  have goesOn := starts.inside line
  rw [blockNode?, skip]
  rw [locate_cons (show isBreak '!' = false by decide)] at goesOn ⊢
  simp [goesOn, Nat.not_lt.mpr deep, atMark]

/-- A bar starts a literal block. -/
theorem blockNode?_literal (deep : floor ≤ column + 1) (chars : List Char) :
    blockNode? (fuel + 1) floor listColumn keyAllowed (locate line (column + 1) ('|' :: chars)) =
      (block? false floor (locate line (column + 1 + 1) chars)).map .ofQuoted := by
  have starts : StartsLine (column + 1) ('|' :: chars) := .cons (by decide) (by decide) chars
  have skip := starts.skipFiller false keyAllowed line (column + 1)
  have goesOn := starts.inside line
  rw [blockNode?, skip]
  rw [locate_cons (show isBreak '|' = false by decide)] at goesOn ⊢
  simp [goesOn, Nat.not_lt.mpr deep, atMark]

end Nodes

theorem misleadsInside_eq_false {chars : List Char} (clear : ∀ c ∈ chars, c ≠ ':' ∧ c ≠ '#') :
    misleadsInside chars = false := by
  induction chars with
  | nil => rfl
  | cons c rest ih =>
    obtain ⟨first, clear⟩ := List.forall_mem_cons.mp clear
    cases rest with
    | nil => simp [misleadsInside, first]
    | cons d rest => simp [misleadsInside, first, clear d List.mem_cons_self, ih clear]

/-- The digits of a number need no marks. -/
theorem isPlain_toDigits (value : Nat) : IsPlain (Nat.toDigits 10 value) := by
  have digit : ∀ c ∈ Nat.toDigits 10 value, '0' ≤ c ∧ c ≤ '9' := fun c => Text.digit_of_mem_toDigits
  have other : ∀ d : Char, ¬('0' ≤ d ∧ d ≤ '9') → ∀ c ∈ Nat.toDigits 10 value, c ≠ d := by
    rintro d none c member rfl
    exact none (digit c member)
  have space := other ' ' (by decide)
  obtain ⟨c, rest, shape⟩ := List.exists_cons_of_ne_nil (Nat.toDigits_ne_nil (b := 10) (n := value))
  have first : c ∈ Nat.toDigits 10 value := shape ▸ List.mem_cons_self
  exact
    { written := Nat.toDigits_ne_nil
      printable := fun c member => by
        have low : ' ' ≤ c := Char.le_trans (by decide) (digit c member).1
        have high : c ≤ '~' := Char.le_trans (digit c member).2 (by decide)
        simp [isPrintable, low, high]
      inline := fun c member => by
        simp [isBreak, other _ _ c member]
      first := fun c head => space c (List.mem_of_mem_head? head)
      last := fun c final => space c (List.mem_of_mem_getLast? final)
      marker := by
        have marks := And.intro (other '-' (by decide) c first) (other '.' (by decide) c first)
        rw [shape]
        unfold startsLikeMarker
        split <;> simp_all
      start := by
        rw [shape]
        simp [misleadsAtStart, isIndicator, other _ _ c first]
      clear := misleadsInside_eq_false fun c member => ⟨other ':' (by decide) c member, other '#' (by decide) c member⟩ }

/-! ## Values -/

/-- White space stands before every value. -/
theorem content_starts (place : Place) (depth : Nat) (value : Value) :
    ∃ c more, content place depth value = c :: more ∧ isWhite c = true := by
  have opening : ∀ depth, ∃ c more, place.opening depth = c :: more ∧ isWhite c = true := by
    intro depth
    unfold Place.opening
    split
    · exact ⟨' ', [], rfl, by decide⟩
    · exact ⟨'\n', _, rfl, by decide⟩
  cases value with
  | null => exact ⟨' ', "null".toList, by simp [content], by decide⟩
  | bool value => cases value <;> exact ⟨' ', _, by simp [content]; rfl, by decide⟩
  | natural value => exact ⟨' ', _, by rw [content], by decide⟩
  | text value => exact ⟨' ', _, by rw [content], by decide⟩
  | list items =>
    cases items with
    | nil => exact ⟨' ', ['[', ']'], by simp [content], by decide⟩
    | cons item items =>
      obtain ⟨c, more, starts, white⟩ := opening (place.listDepth depth)
      exact ⟨c, _, by rw [content, starts, List.cons_append], white⟩
  | record fields =>
    cases fields with
    | nil => exact ⟨' ', ['\x7b', '\x7d'], by simp [content], by decide⟩
    | cons field fields =>
      obtain ⟨c, more, starts, white⟩ := opening (depth + 2)
      exact ⟨c, _, by rw [content, starts, List.cons_append], white⟩
  | choice tag value => exact ⟨' ', _, by rw [content], by decide⟩

/-- A value at a depth stands at a place in a text, with less deep text behind it. -/
structure Stands (place : Place) (depth column outer : Nat) (listColumn : Option Nat) (rest : List Char) :
    Prop where
  /-- A mark has the width of one character. -/
  beside : place = .besideMark → column = depth + 1
  inside : depth < column
  /-- Behind a key a list may stand at the column of the key. -/
  list : place = .afterKey → listColumn = some depth
  less : outer ≤ depth
  starts : StartsLine outer rest
  /-- A list at the column of a key is not followed by another item. -/
  done : place = .afterKey → outer = depth → ∀ line, atMark '-' (locate line outer rest) = false

/-- A value is read wherever it stands. -/
def Reads (value : Value) : Prop :=
  ∀ ⦃place : Place⦄ ⦃depth column outer : Nat⦄ ⦃listColumn : Option Nat⦄ ⦃rest : List Char⦄,
    Stands place depth column outer listColumn rest → ∀ line fuel,
      4 * (ended (content place depth value) outer rest).length + 4 ≤ fuel →
        ∃ node, blockNode? fuel (depth + 1) listColumn (place = .besideMark)
            (locate line column (ended (content place depth value) outer rest)) = some node ∧
          node.tree = value.treeIn .yaml ∧ node.Closes outer rest

namespace Reads

/-- A value that is read on the line of its key or mark. -/
theorem of_inline {value : Value} (write : Nat → List Char)
    (written : ∀ place depth, content place depth value = ' ' :: write depth)
    (opens : ∀ depth, ∃ c others, write depth = c :: others ∧ OpensInline c others)
    (read : ∀ (line depth outer column : Nat) (rest : List Char), outer ≤ depth → StartsLine outer rest →
      0 < column → ∃ node, inlineNode? (depth + 1)
        (locate line column (ended (write depth) outer rest)) = some node ∧
        node.IsValue (value.treeIn .yaml) line outer rest) : Reads value := by
  intro place depth column outer listColumn rest stands line fuel enough
  obtain ⟨fuel, rfl⟩ := Nat.exists_eq_add_one_of_ne_zero (show fuel ≠ 0 by omega)
  obtain ⟨c, others, shape, opens⟩ := opens depth
  obtain ⟨node, read, isValue⟩ := read line depth outer _ rest stands.less stands.starts (Nat.succ_pos column)
  have tail : ended (write depth) outer rest = c :: (others ++ (newlineAfter (write depth) outer ++ rest)) := by
    simp [ended, shape]
  have starts : StartsLine (column + 1) (c :: (others ++ (newlineAfter (write depth) outer ++ rest))) :=
    ⟨by rintro _ ⟨⟩; exact opens.solid, fun line => atDocumentEnd_locate_of_pos (Nat.succ_pos column) line _⟩
  refine ⟨node, ?_, isValue.tree_eq, isValue.closes⟩
  rw [written, ended_cons _ (by simp [shape]), blockNode?_space]
  rw [tail] at read ⊢
  rw [blockNode?_inline (opens.append _) starts (Nat.succ_le_succ (Nat.le_of_lt stands.inside)), read]
  simp [isValue.notKey]

theorem of_scalar {value : Value} (write : Nat → List Char)
    (written : ∀ place depth, content place depth value = ' ' :: write depth)
    (opens : ∀ depth, ∃ c others, write depth = c :: others ∧ OpensScalar c others)
    (read : ∀ (line depth outer column : Nat) (rest : List Char), outer ≤ depth → StartsLine outer rest →
      0 < column → ∃ node, flowScalar? false (depth + 1)
        (locate line column (ended (write depth) outer rest)) = some node ∧
        node.IsValue (value.treeIn .yaml) line outer rest) : Reads value := by
  refine of_inline write written (fun depth => ?_) fun line depth outer column rest less starts inside => ?_
  · obtain ⟨c, others, shape, opens⟩ := opens depth
    exact ⟨c, others, shape, opens.toOpensInline⟩
  · obtain ⟨c, others, shape, opens⟩ := opens depth
    obtain ⟨node, read, isValue⟩ := read line depth outer column rest less starts inside
    have opens' : OpensScalar c (others ++ (newlineAfter (write depth) outer ++ rest)) :=
      ⟨opens.toOpensInline.append _, opens.flow⟩
    have tail : ended (write depth) outer rest = c :: (others ++ (newlineAfter (write depth) outer ++ rest)) := by
      simp [ended, shape]
    refine ⟨node, ?_, isValue⟩
    rw [tail] at read ⊢
    rw [inlineNode?_scalar opens', read]

theorem of_plain {value : Value} {chars : List Char} (plain : IsPlain chars)
    (written : ∀ place depth, content place depth value = ' ' :: chars)
    (tree : value.treeIn .yaml = .plain (String.ofList chars)) : Reads value :=
  of_scalar _ written (fun _ => plain.opensScalar) fun _ _ _ _ _ less starts inside =>
    tree ▸ exists_flowScalar?_plain plain (Nat.lt_succ_of_le less) starts inside

theorem null : Reads .null :=
  of_plain (.of_allowsPlain (by simp) (show Profile.allowsPlain ⟨"null".toList⟩ = true by decide))
    (fun _ _ => by simp [content]) rfl

theorem bool (value : Bool) : Reads (.bool value) := by
  cases value with
  | false =>
    exact of_plain (.of_allowsPlain (by simp) (show Profile.allowsPlain ⟨"false".toList⟩ = true by decide))
      (fun _ _ => by simp [content]) rfl
  | true =>
    exact of_plain (.of_allowsPlain (by simp) (show Profile.allowsPlain ⟨"true".toList⟩ = true by decide))
      (fun _ _ => by simp [content]) rfl

theorem natural (value : Nat) : Reads (.natural value) :=
  of_plain (isPlain_toDigits value) (fun _ _ => by rw [content]) rfl

theorem text (text : String) : Reads (.text text) := by
  by_cases flows : styleOf text ≠ .literal
  · exact of_scalar _ (fun _ _ => by rw [content, textScalar]) (fun depth => (suits_styleOf text).opensScalar flows (depth + 2))
      fun line depth outer column rest less starts inside =>
        exists_flowScalar?_scalar (suits_styleOf text) flows (Nat.succ_pos _) (Nat.lt_succ_of_le less) starts inside
  · have style : styleOf text = .literal := not_not.mp flows
    have suits := suits_styleOf text
    rw [style] at suits
    cases suits with
    | literal broken printable =>
      intro place depth column outer listColumn rest stands line fuel enough
      obtain ⟨fuel, rfl⟩ := Nat.exists_eq_add_one_of_ne_zero (show fuel ≠ 0 by omega)
      have written : text.toList ≠ [] := List.ne_nil_of_mem broken
      obtain ⟨below, read⟩ := block?_literal written printable stands.less stands.starts line (column + 1 + 1)
      have shape : ended (content place depth (.text text)) outer rest =
          ' ' :: '|' :: ended (literal (depth + 2) text.toList).tail outer rest := by
        have header : literal (depth + 2) text.toList = '|' :: (literal (depth + 2) text.toList).tail := rfl
        have more : (literal (depth + 2) text.toList).tail ≠ [] := by simp [literal, literalHeader]
        rw [content, textScalar, style, scalar, header, ended_cons _ (by simp), ended_cons _ more]
        rfl
      refine ⟨⟨.quoted text, locate below outer rest, true⟩, ?_, ?_, _, stands.starts.skipFiller false true _ _⟩
      · rw [shape, blockNode?_space, blockNode?_literal (Nat.succ_le_succ (Nat.le_of_lt stands.inside)), read]
        simp [NodeReading.ofQuoted]
      · simp [Format.textTree, style]

theorem emptyList : Reads (.list []) := by
  refine of_inline (fun _ => ['[', ']']) (fun _ _ => by simp [content])
    (fun _ => ⟨'[', _, rfl, by decide, by decide, by simp⟩) ?_
  intro line depth outer column rest less starts inside
  refine ⟨⟨.list [], locate line (column + 2) (newline outer ++ rest), false⟩, ?_, .of_newline starts _ _⟩
  have shape : locate line column (ended ['[', ']'] outer rest) =
      ⟨'[', line, column⟩ :: ⟨']', line, column + 1⟩ :: locate line (column + 2) (newline outer ++ rest) := rfl
  have goesOn := atDocumentEnd_locate_of_pos inside line (ended ['[', ']'] outer rest)
  rw [shape] at goesOn ⊢
  simp [inlineNode?, flowNode?, goesOn, flowItems?, skipFiller, show isBreak ']' = false by decide]

theorem emptyRecord : Reads (.record []) := by
  refine of_inline (fun _ => ['\x7b', '\x7d']) (fun _ _ => by simp [content])
    (fun _ => ⟨'\x7b', _, rfl, by decide, by decide, by simp⟩) ?_
  intro line depth outer column rest less starts inside
  refine ⟨⟨.map [], locate line (column + 2) (newline outer ++ rest), false⟩, ?_, .of_newline starts _ _⟩
  have shape : locate line column (ended ['\x7b', '\x7d'] outer rest) =
      ⟨'\x7b', line, column⟩ :: ⟨'\x7d', line, column + 1⟩ ::
        locate line (column + 2) (newline outer ++ rest) := rfl
  have goesOn := atDocumentEnd_locate_of_pos inside line (ended ['\x7b', '\x7d'] outer rest)
  rw [shape] at goesOn ⊢
  simp [inlineNode?, flowNode?, goesOn, flowEntries?, skipFiller, show isBreak '\x7d' = false by decide]

end Reads

/-- A word is read as a tag up to the white space behind it. -/
theorem tagName?_word {tag : String} (word : Value.IsTag tag) {rest : List Char}
    (white : ∃ c more, rest = c :: more ∧ isWhite c = true) (line column : Nat) :
    tagName? (locate line column (tag.toList ++ rest)) =
      some (tag.toList, locate line (column + tag.toList.length) rest) := by
  obtain ⟨c, more, rfl, white⟩ := white
  have other : ∀ d : Char, d.isLower = false → ∀ e ∈ tag.toList, e ≠ d := by
    rintro d none e member rfl
    rw [word e member] at none
    cases none
  have inline : ∀ e ∈ tag.toList, isBreak e = false := fun e member => by
    simp [isBreak, other _ _ e member]
  have name := span_locate (fun c => !isWhite c && !isFlowIndicator c) inline
    (fun e member => by simp [isWhite, isBlank, inline e member, isFlowIndicator, other _ _ e member])
    (show ∀ d ∈ (c :: more).head?, (!isWhite d && !isFlowIndicator d) = false by simp [white]) line column
  have stops : atWhite (locate line (column + tag.toList.length) (c :: more)) = true := white
  rw [tagName?, name]
  simp only [stops, ↓reduceIte, map_char_locate]

theorem Stands.tagged {place : Place} {depth column outer : Nat} {listColumn : Option Nat} {rest : List Char}
    (stands : Stands place depth column outer listColumn rest) (width : Nat) :
    Stands place.tagged depth (column + width) outer listColumn rest where
  beside marked := by cases place <;> cases marked
  inside := Nat.lt_add_right width stands.inside
  list key := stands.list (by cases place <;> first | rfl | cases key)
  less := stands.less
  starts := stands.starts
  done key := stands.done (by cases place <;> first | rfl | cases key)

/-- An alternative is read behind its tag. -/
theorem Reads.choice {tag : String} (word : Value.IsTag tag) {value : Value} (reads : Reads value) :
    Reads (.choice tag value) := by
  intro place depth column outer listColumn rest stands line fuel enough
  obtain ⟨fuel, rfl⟩ := Nat.exists_eq_add_one_of_ne_zero (show fuel ≠ 0 by omega)
  obtain ⟨c, more, starts, white⟩ := content_starts place.tagged depth value
  have shape : ended (content place depth (.choice tag value)) outer rest =
      ' ' :: '!' :: (tag.toList ++ ended (content place.tagged depth value) outer rest) := by
    rw [content, ended_cons _ (by simp), ended_cons _ (by simp [starts]), ended_append _ (by simp [starts])]
  have behind : ∃ c more, ended (content place.tagged depth value) outer rest = c :: more ∧ isWhite c = true := by
    rw [starts]
    exact ⟨c, _, rfl, white⟩
  rw [shape] at enough ⊢
  obtain ⟨node, read, tree, closes⟩ := reads (stands.tagged (2 + tag.toList.length)) line fuel (by
    simp only [List.length_cons, List.length_append] at enough
    omega)
  have mark : decide (place.tagged = .besideMark) = false := by cases place <;> rfl
  refine ⟨node.tag tag.toList, ?_, ?_, closes⟩
  · rw [mark, ← Nat.add_assoc] at read
    rw [blockNode?_space, blockNode?_tag (Nat.succ_le_succ (Nat.le_of_lt stands.inside)),
      tagName?_word word behind, Option.bind_some]
    simp only [read, Option.map_some]
  · simp [NodeReading.tag, tree, Format.choiceTree]

end ClassModel.Document.Yaml
