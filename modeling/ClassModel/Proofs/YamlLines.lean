import ClassModel.Document.Yaml.Printer
import ClassModel.Document.Yaml.Reader
import Mathlib.Data.List.TakeDrop

/-! # Lines of a printed text

The printer ends every text and starts the next line at a depth; the reader counts lines and columns.
Here are the places behind a text, what the reader skips between two texts, and what a text must start
with so that nothing of it is skipped (`StartsLine`).
-/

namespace ClassModel.Document.Yaml

/-! ## Places -/

theorem isBlank_eq_false {c : Char} (solid : isWhite c = false) : isBlank c = false :=
  (Bool.or_eq_false_iff.mp solid).1

theorem isBreak_eq_false {c : Char} (solid : isWhite c = false) : isBreak c = false :=
  (Bool.or_eq_false_iff.mp solid).2

/-- The line of what follows a text. -/
def lineAfter (line : Nat) : List Char → Nat
  | [] => line
  | c :: rest => if isBreak c then lineAfter (line + 1) rest else lineAfter line rest

/-- The column of what follows a text. -/
def columnAfter (column : Nat) : List Char → Nat
  | [] => column
  | c :: rest => if isBreak c then columnAfter 0 rest else columnAfter (column + 1) rest

@[simp] theorem lineAfter_nil (line : Nat) : lineAfter line [] = line := rfl

@[simp] theorem columnAfter_nil (column : Nat) : columnAfter column [] = column := rfl

theorem locate_append (line column : Nat) (front back : List Char) :
    locate line column (front ++ back) =
      locate line column front ++ locate (lineAfter line front) (columnAfter column front) back := by
  induction front generalizing line column with
  | nil => rfl
  | cons c rest ih =>
    simp only [List.cons_append, locate, lineAfter, columnAfter]
    split <;> simp [ih]

@[simp] theorem map_char_locate (line column : Nat) (chars : List Char) :
    (locate line column chars).map (·.char) = chars := by
  induction chars generalizing line column with
  | nil => rfl
  | cons c rest ih =>
    simp only [locate, List.map_cons]
    split <;> rw [ih]

theorem length_locate (line column : Nat) (chars : List Char) :
    (locate line column chars).length = chars.length := by
  induction chars generalizing line column with
  | nil => rfl
  | cons c rest ih =>
    simp only [locate, List.length_cons]
    split <;> rw [ih]

theorem locate_cons_of_break {c : Char} (ends : isBreak c = true) (line column : Nat) (rest : List Char) :
    locate line column (c :: rest) = ⟨c, line, column⟩ :: locate (line + 1) 0 rest := by
  simp [locate, ends]

theorem locate_cons {c : Char} (inside : isBreak c = false) (line column : Nat) (rest : List Char) :
    locate line column (c :: rest) = ⟨c, line, column⟩ :: locate line (column + 1) rest := by
  simp [locate, inside]

/-- A text on one line does not leave it. -/
theorem after_of_inline {chars : List Char} (inline : ∀ c ∈ chars, isBreak c = false) (line column : Nat) :
    lineAfter line chars = line ∧ columnAfter column chars = column + chars.length := by
  induction chars generalizing column with
  | nil => exact ⟨rfl, rfl⟩
  | cons c rest ih =>
    obtain ⟨inside, inline⟩ := List.forall_mem_cons.mp inline
    obtain ⟨line, column⟩ := ih inline (column + 1)
    simp only [lineAfter, columnAfter, inside, Bool.false_eq_true, ↓reduceIte, List.length_cons]
    exact ⟨line, by omega⟩

theorem lineAfter_append (line : Nat) (front back : List Char) :
    lineAfter line (front ++ back) = lineAfter (lineAfter line front) back := by
  induction front generalizing line with
  | nil => rfl
  | cons c rest ih =>
    simp only [List.cons_append, lineAfter]
    split <;> exact ih _

theorem columnAfter_append (column : Nat) (front back : List Char) :
    columnAfter column (front ++ back) = columnAfter (columnAfter column front) back := by
  induction front generalizing column with
  | nil => rfl
  | cons c rest ih =>
    simp only [List.cons_append, columnAfter]
    split <;> exact ih _

theorem locate_append_of_inline {chars : List Char} (inline : ∀ c ∈ chars, isBreak c = false)
    (line column : Nat) (rest : List Char) :
    locate line column (chars ++ rest) =
      locate line column chars ++ locate line (column + chars.length) rest := by
  rw [locate_append, (after_of_inline inline line column).1, (after_of_inline inline line column).2]

/-- What a reader takes up to a character of another class. -/
theorem span_locate (p : Char → Bool) {chars rest : List Char} (inline : ∀ c ∈ chars, isBreak c = false)
    (all : ∀ c ∈ chars, p c = true) (stops : ∀ c ∈ rest.head?, p c = false) (line column : Nat) :
    (locate line column (chars ++ rest)).span (fun spot => p spot.char) =
      (locate line column chars, locate line (column + chars.length) rest) := by
  have taken : ∀ spot ∈ locate line column chars, p spot.char = true := by
    intro spot member
    have written : spot.char ∈ chars := by
      rw [← map_char_locate line column chars]
      exact List.mem_map_of_mem member
    exact all _ written
  rw [List.span_eq_takeWhile_dropWhile, locate_append_of_inline inline,
    List.takeWhile_append_of_pos taken, List.dropWhile_append_of_pos taken]
  cases rest with
  | nil => simp [locate]
  | cons c rest => simp [locate, stops c rfl]

/-! ## Ends of documents -/

/-- The line between two documents starts with a dash or a point at the margin. -/
theorem atDocumentEnd_cons {spot : Spot} (other : spot.column ≠ 0 ∨ spot.char ≠ '-' ∧ spot.char ≠ '.')
    (rest : List Spot) : atDocumentEnd (spot :: rest) = false := by
  have away : ∀ mark, mark = '-' ∨ mark = '.' → atDivider mark (spot :: rest) = false := by
    intro mark known
    unfold atDivider
    split
    · rename_i same
      obtain ⟨rfl, -⟩ := List.cons.inj same
      rcases other with inside | other
      · simp [inside]
      · rcases known with rfl | rfl <;> simp [other]
    · rfl
  simp [atDocumentEnd, away]

theorem atDocumentEnd_of_isWhite {spot : Spot} (white : isWhite spot.char = true) (rest : List Spot) :
    atDocumentEnd (spot :: rest) = false := by
  refine atDocumentEnd_cons (.inr ⟨?_, ?_⟩) rest <;>
  · intro same
    rw [same] at white
    exact absurd white (by decide)

/-- Inside a line no document ends. -/
theorem atDocumentEnd_locate_of_pos {column : Nat} (inside : 0 < column) (line : Nat) (chars : List Char) :
    atDocumentEnd (locate line column chars) = false := by
  cases chars with
  | nil => rfl
  | cons c rest => exact atDocumentEnd_cons (.inl (Nat.pos_iff_ne_zero.mp inside)) _

theorem take_of_atDivider {mark : Char} {spots : List Spot} (divides : atDivider mark spots = true) :
    (spots.map (·.char)).take 3 = [mark, mark, mark] := by
  unfold atDivider at divides
  split at divides
  · simp only [Bool.and_eq_true, decide_eq_true_eq] at divides
    simp [divides]
  · cases divides

/-- A text that does not start like the line between two documents does not end one. -/
theorem atDocumentEnd_locate {chars rest : List Char} (plain : startsLikeMarker chars = false)
    (written : chars ≠ []) (next : ∀ c ∈ rest.head?, c ≠ '-' ∧ c ≠ '.') (line column : Nat) :
    atDocumentEnd (locate line column (chars ++ rest)) = false := by
  have whole : ∀ mark, mark = '-' ∨ mark = '.' → atDivider mark (locate line column (chars ++ rest)) = false := by
    intro mark known
    have other : ∀ c ∈ rest.head?, c ≠ mark := by
      intro c first
      rcases known with rfl | rfl
      · exact (next c first).1
      · exact (next c first).2
    by_contra divides
    have marks := take_of_atDivider (Bool.of_not_eq_false divides)
    rw [map_char_locate] at marks
    -- the marks would reach beyond the text, or the text would start with them
    match chars, written with
    | [a], _ => cases rest <;> simp_all
    | [a, b], _ => cases rest <;> simp_all
    | a :: b :: c :: more, _ =>
      obtain ⟨rfl, rfl, rfl⟩ : a = mark ∧ b = mark ∧ c = mark := by simpa using marks
      rcases known with rfl | rfl <;> cases plain
  simp [atDocumentEnd, whole]

/-! ## Space between texts -/

theorem isBreak_newline : isBreak '\n' = true := by decide

theorem isBreak_space : isBreak ' ' = false := by decide

theorem locate_spaces (count line column : Nat) (rest : List Char) :
    locate line column (spaces (count + 1) ++ rest) =
      ⟨' ', line, column⟩ :: locate line (column + 1) (spaces count ++ rest) := by
  rw [spaces, List.replicate_succ, List.cons_append, locate_cons isBreak_space]
  rfl

theorem inline_spaces (count : Nat) : ∀ c ∈ spaces count, isBreak c = false := by
  intro c written
  rw [List.eq_of_mem_replicate written]
  exact isBreak_space

@[simp] theorem lineAfter_spaces (line count : Nat) : lineAfter line (spaces count) = line :=
  (after_of_inline (inline_spaces count) line 0).1

@[simp] theorem columnAfter_spaces (column count : Nat) : columnAfter column (spaces count) = column + count := by
  rw [(after_of_inline (inline_spaces count) 0 column).2, spaces, List.length_replicate]

theorem locate_newline (depth line column : Nat) (rest : List Char) :
    locate line column (newline depth ++ rest) =
      ⟨'\n', line, column⟩ :: locate (line + 1) 0 (spaces depth ++ rest) := by
  rw [newline, List.cons_append, locate_cons_of_break isBreak_newline]

/-- Spaces are skipped wherever a reader looks for a further text. -/
theorem skipFiller_spaces (inBrackets keyAllowed : Bool) (count line column : Nat) (rest : List Char) :
    skipFiller inBrackets keyAllowed false (locate line column (spaces count ++ rest)) =
      skipFiller inBrackets keyAllowed false (locate line (column + count) rest) := by
  induction count generalizing column with
  | zero => rfl
  | succ count ih =>
    rw [locate_spaces, skipFiller]
    simp only [isBreak_space, Bool.false_eq_true, ↓reduceIte, ih]
    rw [Nat.add_right_comm, Nat.add_assoc]

/-- A text whose first character no reader skips, and which is no end of a document at a depth. -/
structure StartsLine (depth : Nat) (chars : List Char) : Prop where
  solid : ∀ c ∈ chars.head?, isWhite c = false ∧ c ≠ '#'
  inside : ∀ line, atDocumentEnd (locate line depth chars) = false

namespace StartsLine

variable {depth : Nat} {chars : List Char}

@[simp] theorem nil : StartsLine depth [] := ⟨by simp, fun _ => rfl⟩

/-- What starts with no dash and no point starts a line. -/
theorem cons {c : Char} (solid : isWhite c = false ∧ c ≠ '#') (other : c ≠ '-' ∧ c ≠ '.')
    (rest : List Char) : StartsLine depth (c :: rest) :=
  ⟨by rintro _ ⟨⟩; exact solid, fun _ => atDocumentEnd_cons (.inr other) _⟩

theorem skipFiller (starts : StartsLine depth chars) (inBrackets keyAllowed : Bool) (line column : Nat) :
    skipFiller inBrackets keyAllowed false (locate line column chars) =
      (locate line column chars, keyAllowed) := by
  cases chars with
  | nil => rfl
  | cons c rest =>
    obtain ⟨solid, sign⟩ := starts.solid c rfl
    have parts : isBreak c = false ∧ c ≠ ' ' ∧ c ≠ '\t' := by
      simpa [isWhite, isBlank, and_assoc, and_comm] using solid
    simp [locate, Yaml.skipFiller, parts, sign]

/-- A newline and spaces before a text are skipped, and a key may start there. -/
theorem skipFiller_newline (starts : StartsLine depth chars) (keyAllowed : Bool) (line column : Nat) :
    Yaml.skipFiller false keyAllowed false (locate line column (newline depth ++ chars)) =
      (locate (line + 1) depth chars, true) := by
  rw [locate_newline, Yaml.skipFiller]
  simp only [isBreak_newline, ↓reduceIte, Bool.not_false, Bool.or_true]
  rw [skipFiller_spaces, starts.skipFiller, Nat.zero_add]

end StartsLine

/-! ## Indented lines -/

/-- Whether a line has just ended behind a text, given whether one had before it. -/
def endsLine (startsLine : Bool) (chars : List Char) : Bool := chars.foldl (fun _ c => isBreak c) startsLine

@[simp] theorem endsLine_nil (startsLine : Bool) : endsLine startsLine [] = startsLine := rfl

@[simp] theorem endsLine_cons (startsLine : Bool) (c : Char) (rest : List Char) :
    endsLine startsLine (c :: rest) = endsLine (isBreak c) rest := rfl

@[simp] theorem endsLine_append (startsLine : Bool) (front back : List Char) :
    endsLine startsLine (front ++ back) = endsLine (endsLine startsLine front) back := List.foldl_append

/-- Only the last character tells. -/
theorem endsLine_eq (startsLine : Bool) (chars : List Char) :
    endsLine startsLine chars = (chars.getLast?.map isBreak).getD startsLine := by
  induction chars generalizing startsLine with
  | nil => rfl
  | cons c rest ih => simp [ih, List.getLast?_cons, Option.getD_map]

theorem any_getLast? (chars : List Char) : chars.getLast?.any isBreak = endsLine false chars := by
  rw [endsLine_eq]
  cases chars.getLast? <;> rfl

theorem endsLine_of_inline {chars : List Char} (written : chars ≠ []) (inline : ∀ c ∈ chars, isBreak c = false)
    (startsLine : Bool) : endsLine startsLine chars = false := by
  rw [endsLine_eq, List.getLast?_eq_some_getLast written]
  exact inline _ (List.getLast_mem written)

theorem endsLine_of_breaks {chars : List Char} (written : chars ≠ []) (all : ∀ c ∈ chars, isBreak c = true)
    (startsLine : Bool) : endsLine startsLine chars = true := by
  rw [endsLine_eq, List.getLast?_eq_some_getLast written]
  exact all _ (List.getLast_mem written)

theorem indentLines_append (depth : Nat) (startsLine : Bool) (front back : List Char) :
    indentLines depth startsLine (front ++ back) =
      indentLines depth startsLine front ++ indentLines depth (endsLine startsLine front) back := by
  induction front generalizing startsLine with
  | nil => rfl
  | cons c rest ih =>
    simp only [List.cons_append, indentLines, endsLine_cons]
    split
    · rename_i ends
      rw [ih, ends, List.cons_append]
    · rename_i ends
      rw [ih, Bool.of_not_eq_true ends]
      simp

theorem indentLines_ne_nil {chars : List Char} (written : chars ≠ []) (depth : Nat) (startsLine : Bool) :
    indentLines depth startsLine chars ≠ [] := by
  obtain ⟨c, rest, rfl⟩ := List.exists_cons_of_ne_nil written
  rw [indentLines]
  split <;> simp

theorem length_le_indentLines (depth : Nat) (startsLine : Bool) (chars : List Char) :
    chars.length ≤ (indentLines depth startsLine chars).length := by
  induction chars generalizing startsLine with
  | nil => exact Nat.le_refl _
  | cons c rest ih =>
    rw [indentLines]
    split
    · simpa using ih true
    · have := ih false
      simp only [List.length_append, List.length_cons]
      omega

/-- Only the first character of a line is indented. -/
theorem indentLines_of_inline {c : Char} {line : List Char} (inline : ∀ d ∈ c :: line, isBreak d = false)
    (depth : Nat) (startsLine : Bool) :
    indentLines depth startsLine (c :: line) = (if startsLine then spaces depth else []) ++ c :: line := by
  induction line generalizing c startsLine with
  | nil => simp [indentLines, inline c List.mem_cons_self]
  | cons d rest ih =>
    obtain ⟨solid, inline⟩ := List.forall_mem_cons.mp inline
    rw [indentLines, solid, if_neg (by simp), ih inline]
    rfl

/-! ## Ended texts -/

/-- A text with its last line ended, and what starts the next line at a depth. -/
def ended (chars : List Char) (depth : Nat) (rest : List Char) : List Char :=
  chars ++ newlineAfter chars depth ++ rest

theorem ended_eq (chars : List Char) (depth : Nat) (rest : List Char) :
    ended chars depth rest =
      chars ++ ((if endsLine false chars then spaces depth else newline depth) ++ rest) := by
  rw [ended, newlineAfter, any_getLast?, List.append_assoc]

theorem ended_ne_nil {chars : List Char} (written : chars ≠ []) (depth : Nat) (rest : List Char) :
    ended chars depth rest ≠ [] := by
  simp [ended, written]

theorem length_lt_ended {chars : List Char} (written : chars ≠ []) (depth : Nat) (rest : List Char) :
    rest.length < (ended chars depth rest).length := by
  have := List.length_pos_iff.mpr written
  simp only [ended, List.length_append]
  omega

theorem newlineAfter_append (front : List Char) {back : List Char} (written : back ≠ []) (depth : Nat) :
    newlineAfter (front ++ back) depth = newlineAfter back depth := by
  have last : (front ++ back).getLast? = back.getLast? := by
    rw [List.getLast?_append, Option.or_of_isSome]
    simpa using written
  rw [newlineAfter, newlineAfter, last]

/-- Only the last part of a text matters for its end. -/
theorem ended_append (front : List Char) {back : List Char} (written : back ≠ []) (depth : Nat)
    (rest : List Char) : ended (front ++ back) depth rest = front ++ ended back depth rest := by
  simp [ended, newlineAfter_append front written]

theorem ended_cons (c : Char) {back : List Char} (written : back ≠ []) (depth : Nat) (rest : List Char) :
    ended (c :: back) depth rest = c :: ended back depth rest :=
  ended_append [c] written depth rest

theorem joinLines_ne_nil {block : List Char} (written : block ≠ []) (depth : Nat) (blocks : List (List Char)) :
    joinLines depth (block :: blocks) ≠ [] := by
  cases blocks <;> simp [joinLines, written]

/-- Every text of a sequence is ended, with the next one behind it. -/
theorem ended_joinLines (inner : Nat) (block : List Char) {next : List Char} (written : next ≠ [])
    (blocks : List (List Char)) (depth : Nat) (rest : List Char) :
    ended (joinLines inner (block :: next :: blocks)) depth rest =
      ended block inner (ended (joinLines inner (next :: blocks)) depth rest) := by
  have joined : joinLines inner (block :: next :: blocks) =
      block ++ newlineAfter block inner ++ joinLines inner (next :: blocks) := by
    rw [joinLines]
    simp
  rw [joined, ended_append _ (joinLines_ne_nil written inner blocks)]
  rfl

/-- A sequence of texts starts with the first one. -/
theorem exists_ended_joinLines (inner : Nat) (block : List Char) {blocks : List (List Char)}
    (written : ∀ next ∈ blocks.head?, next ≠ []) (depth : Nat) (rest : List Char) :
    ∃ outer more, ended (joinLines inner (block :: blocks)) depth rest = ended block outer more := by
  cases blocks with
  | nil => exact ⟨depth, rest, rfl⟩
  | cons next blocks => exact ⟨inner, _, ended_joinLines inner block (written next rfl) blocks depth rest⟩

end ClassModel.Document.Yaml
