import ClassModel.Proofs.DocumentTrees
import ClassModel.Proofs.YamlLiterals
import ClassModel.Proofs.YamlQuotes
import Mathlib.Tactic.SplitIfs

/-! # Texts are read back in the style that is chosen for them

The style of a text keeps to what the reader of that style gives back. A text stands as a value, with
nothing but the end of its line behind it, or as a key, with a colon.
-/

namespace ClassModel.Document.Yaml

/-! ## The choice of a style -/

/-- What a style asks of a text; double quotes take all. -/
inductive Suits (chars : List Char) : Style → Prop
  | plain (plain : IsPlain chars) : Suits chars .plain
  | singleQuoted (text : IsSingleQuotable chars) : Suits chars .singleQuoted
  | doubleQuoted : Suits chars .doubleQuoted
  | literal (broken : '\n' ∈ chars) (printable : ∀ c ∈ chars, isPrintable c = true) : Suits chars .literal

theorem suits_quotedStyle {chars : List Char} (newline : ∀ c ∈ chars, c ≠ '\n') :
    Suits chars (quotedStyle ⟨chars⟩) := by
  unfold quotedStyle
  split
  · rename_i allowed
    simp only [Profile.allowsSingleQuoted, Profile.hasBreakSpace, Profile.hasSpaceBreak, Profile.hasSpecial,
      Bool.and_eq_true, Bool.not_eq_true', List.any_eq_false, Bool.not_eq_false] at allowed
    exact .singleQuoted ⟨allowed.2, newline, allowed.1.1, allowed.1.2⟩
  · exact .doubleQuoted

theorem suits_styleOf (text : String) : Suits text.toList (styleOf text) := by
  have newline (inline : ¬text.toList.contains '\n' = true) : ∀ c ∈ text.toList, c ≠ '\n' := by
    rintro c member rfl
    exact inline (by simpa using member)
  simp only [styleOf]
  split_ifs with broken allowed marked allowed
  · simp only [Profile.allowsLiteral, Profile.hasSpecial, Bool.and_eq_true, Bool.not_eq_true',
      List.any_eq_false, Bool.not_eq_false] at allowed
    exact .literal (by simpa using broken) allowed.2
  · exact .doubleQuoted
  · exact suits_quotedStyle (newline broken)
  · refine .plain (.of_allowsPlain ?_ allowed)
    intro empty
    obtain rfl : text = "" := String.toList_injective empty
    exact marked (by decide)
  · exact suits_quotedStyle (newline broken)

/-! ## Scalars in general -/

/-- Behind a node nothing is left but the way to a text at a depth. -/
def NodeReading.Closes (node : NodeReading) (depth : Nat) (rest : List Char) : Prop :=
  ∃ line, skipFiller false node.keyAllowed false node.rest = (locate line depth rest, true)

/-- A node has been read where a value stands: it has a tree, closes, and is no key of its line. -/
structure NodeReading.IsValue (node : NodeReading) (tree : Tree) (line depth : Nat) (rest : List Char) :
    Prop where
  tree_eq : node.tree = tree
  closes : node.Closes depth rest
  notKey : ∀ spot : Spot, spot.line = line → afterKey? false spot node.rest = none

section Values

variable {tree : Tree} {line column depth : Nat} {rest : List Char}

theorem afterKey?_newline (start : Spot) (line column depth : Nat) (rest : List Char) :
    afterKey? false start (locate line column (newline depth ++ rest)) = none := by
  simp [locate_newline, afterKey?, skipBlanks, isBlank]

/-- What stands on a further line is no colon of a key. -/
theorem afterKey?_below (starts : StartsLine depth rest) {start : Spot} (above : start.line ≠ line) :
    afterKey? false start (locate line depth rest) = none := by
  cases rest with
  | nil => rfl
  | cons c others =>
    have solid := isBlank_eq_false (starts.solid c rfl).1
    simp [locate, afterKey?, skipBlanks, solid, Ne.symm above]

/-- A node before the end of its line. -/
theorem NodeReading.IsValue.of_newline (starts : StartsLine depth rest) (below column : Nat) :
    (⟨tree, locate below column (newline depth ++ rest), false⟩ : NodeReading).IsValue tree line depth rest :=
  ⟨rfl, ⟨_, starts.skipFiller_newline false below column⟩, fun start _ => afterKey?_newline start _ _ _ _⟩

/-- A node behind the end of its line. -/
theorem NodeReading.IsValue.of_below (starts : StartsLine depth rest) {below : Nat} (other : line ≠ below) :
    (⟨tree, locate below depth rest, true⟩ : NodeReading).IsValue tree line depth rest :=
  ⟨rfl, ⟨_, starts.skipFiller false true below depth⟩, fun _ same =>
    afterKey?_below starts (same ▸ other)⟩

end Values

/-! ## Scalars on one line -/

/-- The first character of a plain text is no mark, nor is it one for what stands behind it. -/
theorem IsPlain.opening {chars : List Char} (plain : IsPlain chars) :
    ∃ c others, chars = c :: others ∧ isWhite c = false ∧ isIndicator c = false ∧
      (c = '-' ∨ c = '?' ∨ c = ':' → ∃ d more, others = d :: more ∧ isWhite d = false) := by
  obtain ⟨c, others, rfl⟩ := List.exists_cons_of_ne_nil plain.written
  have start := plain.start
  simp only [misleadsAtStart, Bool.or_eq_false_iff, Bool.and_eq_false_iff, decide_eq_false_iff_not] at start
  obtain ⟨indicator, marks⟩ := start
  refine ⟨c, others, rfl, isWhite_eq_false (plain.printable c (by simp)) (plain.inline c (by simp))
    (plain.first c rfl), indicator, fun mark => ?_⟩
  have follows := marks.resolve_left (by rintro ⟨⟨question, colon⟩, dash⟩; simp_all)
  cases others with
  | nil => cases follows
  | cons d more => exact ⟨d, more, rfl, by simpa using follows⟩

/-- The reader of scalars takes a text without marks for a plain one. -/
theorem flowScalar?_plain {chars : List Char} (plain : IsPlain chars) (floor line column : Nat)
    {rest : List Char} (inside : atDocumentEnd (locate line column (chars ++ rest)) = false) :
    flowScalar? false floor (locate line column (chars ++ rest)) =
      (plainFrom false floor chars .none (locate line (column + chars.length) rest)).map .ofPlain := by
  have read := plainFrom_text floor line rest plain.written plain.toIsPlainTail column [] (absurd rfl) inside
  obtain ⟨c, others, rfl, dark, indicator, marks⟩ := plain.opening
  have solid : isBreak c = false := plain.inline c (by simp)
  have quotes : c ≠ '\'' ∧ c ≠ '"' := by constructor <;> rintro rfl <;> cases indicator
  have next : c = '-' ∨ c = '?' ∨ c = ':' → atWhite (locate line (column + 1) (others ++ rest)) = false := by
    intro mark
    obtain ⟨d, more, rfl, dark⟩ := marks mark
    exact dark
  have starts : startsPlain false (⟨c, line, column⟩ :: locate line (column + 1) (others ++ rest)) = true := by
    simp only [startsPlain]
    split_ifs with dash mark
    · simp [next (.inl dash)]
    · simp [next (.inr (by simpa using mark))]
    · simp [dark, indicator]
  rw [List.cons_append, locate_cons solid] at read ⊢
  simp only [flowScalar?, quotes, starts, ↓reduceIte, Gap.none, read]
  rfl

theorem flowScalar?_doubleQuoted (chars : List Char) (floor line column : Nat) (rest : List Char) :
    flowScalar? false floor (locate line column (doubleQuoted chars ++ rest)) =
      some ⟨.quoted (String.ofList chars), locate line (column + (doubleQuoted chars).length) rest, false⟩ := by
  have shape : doubleQuoted chars ++ rest = '"' :: (chars.flatMap doubleQuotedChar ++ '"' :: rest) := by
    simp [doubleQuoted]
  have enough : (chars.flatMap doubleQuotedChar).length <
      (locate line (column + 1) (chars.flatMap doubleQuotedChar ++ '"' :: rest)).length + 1 := by
    simp only [length_locate, List.length_append]
    omega
  have read := doubleQuotedFrom_text line rest chars (Nat.succ_pos column) [] [] enough
  rw [shape, locate_cons (show isBreak '"' = false by decide)]
  simp only [flowScalar?, Gap.none, read, Option.map_some]
  simp [NodeReading.ofQuoted, doubleQuoted, Nat.add_assoc, Nat.add_comm, Nat.add_left_comm]

theorem flowScalar?_singleQuoted {chars : List Char} (text : IsSingleQuotable chars) {depth : Nat}
    (deep : 0 < depth) (floor line column : Nat) {rest : List Char} (next : ∀ c ∈ rest.head?, c ≠ '\'') :
    flowScalar? false floor (locate line column (singleQuoted depth chars ++ rest)) =
      some ⟨.quoted (String.ofList chars), locate (lineAfter line (singleQuoted depth chars))
        (columnAfter column (singleQuoted depth chars)) rest, false⟩ := by
  have quote : isBreak '\'' = false := by decide
  have shape : singleQuoted depth chars ++ rest = '\'' :: (quotedLines depth false chars ++ '\'' :: rest) := by
    simp [singleQuoted_eq]
  have read := readsQuoted deep text (.inline (absurd rfl)) line (column + 1) [] rest
    (fun _ => Nat.succ_pos column) next
  rw [shape, locate_cons quote]
  simp only [flowScalar?, Gap.none, read, ↓reduceIte, Option.map_some, singleQuoted_eq, lineAfter, columnAfter,
    quote, Bool.false_eq_true, lineAfter_append, columnAfter_append]
  rfl

/-! ## Values -/

/-- The tree of a text that is written in a style. -/
def scalarTree (style : Style) (text : String) : Tree :=
  if style = .plain then .plain text else .quoted text

section Texts

variable {floor outer : Nat} {rest : List Char} {line column : Nat}

/-- A plain text is read as a value. -/
theorem exists_flowScalar?_plain {chars : List Char} (plain : IsPlain chars) (less : outer < floor)
    (starts : StartsLine outer rest) (inside : 0 < column) :
    ∃ node, flowScalar? false floor (locate line column (ended chars outer rest)) = some node ∧
      node.IsValue (.plain (String.ofList chars)) line outer rest := by
  have opens : endsLine false chars = false := endsLine_of_inline plain.written plain.inline false
  refine ⟨⟨_, locate (line + 1) outer rest, true⟩, ?_, .of_below starts (Nat.ne_add_one line)⟩
  rw [ended_eq, opens, if_neg (by simp),
    flowScalar?_plain plain floor line column (atDocumentEnd_locate_of_pos inside _ _),
    plainFrom_newline less _ _ _ starts]
  rfl

/-- A text on lines of its own is read as a value in a style that suits it. -/
theorem exists_flowScalar?_scalar {text : String} {style : Style} (suits : Suits text.toList style)
    (flows : style ≠ .literal) {depth : Nat} (deep : 0 < depth) (less : outer < floor)
    (starts : StartsLine outer rest) (inside : 0 < column) :
    ∃ node, flowScalar? false floor (locate line column (ended (scalar depth style text) outer rest)) =
        some node ∧ node.IsValue (scalarTree style text) line outer rest := by
  cases suits with
  | plain plain =>
    simpa [scalarTree, scalar] using exists_flowScalar?_plain plain less starts inside
  | singleQuoted quotable =>
    have closes : endsLine false (singleQuoted depth text.toList) = false := by
      simp [singleQuoted_eq, show isBreak '\'' = false by decide]
    have next : ∀ c ∈ (newline outer ++ rest).head?, c ≠ '\'' := by
      rintro _ ⟨⟩
      decide
    have read := flowScalar?_singleQuoted quotable deep floor line column next
    rw [scalar, ended_eq, closes, if_neg (by simp), read, String.ofList_toList]
    exact ⟨_, rfl, .of_newline starts _ _⟩
  | doubleQuoted =>
    have closes : endsLine false (doubleQuoted text.toList) = false := by
      simp [doubleQuoted, show isBreak '"' = false by decide]
    have read := flowScalar?_doubleQuoted text.toList floor line column (newline outer ++ rest)
    rw [scalar, ended_eq, closes, if_neg (by simp), read, String.ofList_toList]
    exact ⟨_, rfl, .of_newline starts _ _⟩
  | literal broken printable => exact absurd rfl flows

end Texts

/-! ## Keys -/

theorem lt_utf8Size {c : Char} : (0xFF < c.toNat → 1 < c.utf8Size) ∧ (0xFFFF < c.toNat → 2 < c.utf8Size) := by
  have bound : ∀ {limit : UInt32}, c.val ≤ limit → c.toNat ≤ limit.toNat := UInt32.le_iff_toNat_le.mp
  simp only [Char.utf8Size]
  constructor <;> intro large
  · split_ifs with one
    · have := bound one
      simp at this
      omega
    all_goals omega
  · split_ifs with one two
    · have := bound one
      simp at this
      omega
    · have := bound two
      simp at this
      omega
    all_goals omega

/-- No character takes more than four columns for each of its bytes. -/
theorem length_escaped_le (c : Char) : (escaped c).length ≤ 4 * c.utf8Size := by
  have positive : 0 < c.utf8Size := c.utf8Size_pos
  unfold escaped
  split
  · simp
    omega
  · split_ifs with byte pair
    · simp [Text.length_hexDigits]
      omega
    · have two := (lt_utf8Size (c := c)).1 (by omega)
      simp [Text.length_hexDigits]
      omega
    · have three := (lt_utf8Size (c := c)).2 (by omega)
      simp [Text.length_hexDigits]
      omega

theorem length_doubleQuotedChar_le (c : Char) : (doubleQuotedChar c).length ≤ 4 * c.utf8Size := by
  have positive : 0 < c.utf8Size := c.utf8Size_pos
  unfold doubleQuotedChar
  split
  · exact length_escaped_le c
  · simp
    omega

theorem length_singleQuotedChar_le (c : Char) : (singleQuotedChar c).length ≤ 4 * c.utf8Size := by
  have positive : 0 < c.utf8Size := c.utf8Size_pos
  unfold singleQuotedChar
  split <;> simp <;> omega

theorem length_flatMap_le {write : Char → List Char} (each : ∀ c, (write c).length ≤ 4 * c.utf8Size)
    (text : String) : (text.toList.flatMap write).length ≤ 4 * text.utf8ByteSize := by
  have ofList : ∀ chars : List Char, (chars.flatMap write).length ≤ 4 * (String.ofList chars).utf8ByteSize := by
    intro chars
    induction chars with
    | nil => simp
    | cons c rest ih =>
      have := each c
      rw [List.flatMap_cons, List.length_append, String.ofList_cons, String.utf8ByteSize_append,
        String.utf8ByteSize_singleton]
      omega
  simpa using ofList text.toList

section Keys

variable {key : String} {style : Style}

/-- A text on one line is written on one line, and not much longer. -/
theorem inline_scalar (suits : Suits key.toList style) (inline : ∀ c ∈ key.toList, isBreak c = false) (depth : Nat) :
    (∀ c ∈ scalar depth style key, isBreak c = false) ∧
      (scalar depth style key).length ≤ 4 * key.utf8ByteSize + 2 := by
  have quote : isBreak '\'' = false ∧ isBreak '"' = false := by decide
  cases suits with
  | plain plain =>
    have single : ∀ c : Char, [c].length ≤ 4 * c.utf8Size := by
      intro c
      have positive : 0 < c.utf8Size := c.utf8Size_pos
      simp
      omega
    have short := length_flatMap_le single key
    refine ⟨inline, ?_⟩
    simp [scalar] at short ⊢
    omega
  | singleQuoted quotable =>
    have short := length_flatMap_le length_singleQuotedChar_le key
    rw [scalar, singleQuoted_eq, quotedLines_of_inline inline]
    refine ⟨List.forall_mem_cons.mpr ⟨quote.1, ?_⟩, by simp at short ⊢; omega⟩
    refine List.forall_mem_append.mpr ⟨fun d written => ?_, by simpa using quote.1⟩
    obtain ⟨c, member, written⟩ := List.mem_flatMap.mp written
    exact inline_singleQuotedChar (inline c member) d written
  | doubleQuoted =>
    have short := length_flatMap_le length_doubleQuotedChar_le key
    refine ⟨List.forall_mem_cons.mpr ⟨quote.2, ?_⟩, by simp [scalar, doubleQuoted] at short ⊢; omega⟩
    refine List.forall_mem_append.mpr ⟨fun d written => ?_, by simpa using quote.2⟩
    obtain ⟨c, member, written⟩ := List.mem_flatMap.mp written
    exact (clean_doubleQuotedChar d written).2
  | literal broken printable => exact absurd (inline '\n' broken) (by decide)

/-- A key is read up to its colon. -/
theorem flowScalar?_key (suits : Suits key.toList style) (inline : ∀ c ∈ key.toList, isBreak c = false)
    {depth : Nat} (deep : 0 < depth) (floor line column : Nat) {rest : List Char}
    (white : ∀ c ∈ rest.head?, isWhite c = true)
    (inside : atDocumentEnd (locate line column (scalar depth style key ++ ':' :: rest)) = false) :
    flowScalar? false floor (locate line column (scalar depth style key ++ ':' :: rest)) =
      some ⟨scalarTree style key, locate line (column + (scalar depth style key).length) (':' :: rest), false⟩ := by
  obtain ⟨alone, -⟩ := inline_scalar suits inline depth
  cases suits with
  | plain plain =>
    have positive : 0 < column + key.toList.length := by
      have := List.length_pos_iff.mpr plain.written
      omega
    rw [scalar] at inside ⊢
    rw [flowScalar?_plain plain floor line column inside, plainFrom_colon floor line positive _ white]
    simp [NodeReading.ofPlain, scalarTree]
  | singleQuoted quotable =>
    have after := after_of_inline alone line column
    rw [scalar] at after ⊢
    rw [flowScalar?_singleQuoted quotable deep floor line column (by rintro _ ⟨⟩; decide), after.1, after.2]
    simp [scalarTree]
  | doubleQuoted =>
    rw [scalar, flowScalar?_doubleQuoted]
    simp [scalarTree]
  | literal broken printable => exact absurd (inline '\n' broken) (by decide)

/-- The colon behind a key that is not too long makes it one. -/
theorem afterKey?_colon (start : Spot) {length : Nat} (short : length ≤ 1024) {rest : List Char}
    (white : ∀ c ∈ rest.head?, isWhite c = true) :
    afterKey? false start (locate start.line (start.column + length) (':' :: rest)) =
      some (locate start.line (start.column + length + 1) rest) := by
  have follows : atWhite (locate start.line (start.column + length + 1) rest) = true := by
    cases rest with
    | nil => rfl
    | cons c rest => simpa [locate, atWhite] using white c rfl
  rw [locate_cons (show isBreak ':' = false by decide)]
  simp [afterKey?, skipBlanks, isBlank, follows, short]

end Keys

end ClassModel.Document.Yaml
