import ClassModel.Proofs.YamlLines

/-! # Literal blocks are read back

A literal block keeps the ends of its lines; only those at its end are told by the header. The reader
takes empty lines and the indentation of the next line together (`blockFrom`), so a block is read line
by line, each with the empty lines before it.
-/

namespace ClassModel.Document.Yaml

/-! ## Headers -/

/-- How a way to end a block is marked in its header. -/
def Chomping.mark : Chomping → List Char
  | .strip => ['-']
  | .clip => []
  | .keep => ['+']

theorem Chomping.mark_injective {chomping other : Chomping} (same : chomping.mark = other.mark) :
    chomping = other := by
  cases chomping <;> cases other <;> first | rfl | cases same

/-- The marks of a header are read up to the end of its line. -/
theorem marks?_header (given : Bool) (chomping : Chomping) (line column : Nat) (rest : List Char) :
    BlockHeader.marks? { folded := false }
        (locate line column ((if given then ['2'] else []) ++ chomping.mark ++ '\n' :: rest)) =
      some (⟨false, chomping, if given then some 2 else none⟩,
        locate line (column + (if given then 1 else 0) + chomping.mark.length) ('\n' :: rest)) := by
  cases given <;> cases chomping <;> rfl

theorem endLine?_newline (line column : Nat) (rest : List Char) :
    BlockHeader.endLine? (locate line column ('\n' :: rest)) = some (locate (line + 1) 0 rest) := by
  rw [locate_cons_of_break isBreak_newline]
  simp [BlockHeader.endLine?, skipBlanks, isBlank, isBreak_newline]

/-! ## The end of a block -/

theorem chompingMark_of_reverse {chars : List Char} {last : Char} {before : List Char}
    (shape : chars.reverse = last :: before) :
    chompingMark chars = if !isBreak last then ['-'] else if before.head?.all isBreak then ['+'] else [] := by
  rw [chompingMark, shape]

theorem exists_reverse_eq_cons {chars : List Char} (written : chars ≠ []) :
    ∃ last before, chars.reverse = last :: before ∧ ∀ c ∈ last :: before, c ∈ chars := by
  obtain ⟨last, before, shape⟩ := List.exists_cons_of_ne_nil (List.reverse_ne_nil_iff.mpr written)
  exact ⟨last, before, shape, fun c member => List.mem_reverse.mp (shape ▸ member)⟩

theorem chompingMark_of_breaks {breaks : List Char} (written : breaks ≠ []) (all : ∀ b ∈ breaks, isBreak b = true) :
    chompingMark breaks = ['+'] := by
  obtain ⟨last, before, shape, inside⟩ := exists_reverse_eq_cons written
  rw [chompingMark_of_reverse shape]
  cases before with
  | nil => simp [all last (inside last (by simp))]
  | cons c before => simp [all last (inside last (by simp)), all c (inside c (by simp))]

theorem chompingMark_of_line (front : List Char) {line : List Char} (written : line ≠ [])
    (inline : ∀ c ∈ line, isBreak c = false) : chompingMark (front ++ line) = ['-'] := by
  obtain ⟨last, before, shape, inside⟩ := exists_reverse_eq_cons written
  have whole : (front ++ line).reverse = last :: (before ++ front.reverse) := by simp [shape]
  simp [chompingMark_of_reverse whole, inline last (inside last (by simp))]

theorem chompingMark_of_ended_line (front : List Char) {line : List Char} (written : line ≠ [])
    (inline : ∀ c ∈ line, isBreak c = false) {b : Char} (ends : isBreak b = true) :
    chompingMark (front ++ (line ++ [b])) = [] := by
  obtain ⟨last, before, shape, inside⟩ := exists_reverse_eq_cons written
  have whole : (front ++ (line ++ [b])).reverse = b :: last :: (before ++ front.reverse) := by simp [shape]
  simp [chompingMark_of_reverse whole, ends, inline last (inside last (by simp))]

/-- The marks of a text are those of its last lines. -/
theorem chompingMark_append (front : List Char) {b : Char} (ends : isBreak b = true) {rest : List Char}
    (written : rest ≠ []) : chompingMark (front ++ b :: rest) = chompingMark rest := by
  obtain ⟨last, before, shape, -⟩ := exists_reverse_eq_cons written
  have whole : (front ++ b :: rest).reverse = last :: (before ++ b :: front.reverse) := by simp [shape]
  rw [chompingMark_of_reverse whole, chompingMark_of_reverse shape]
  cases before with
  | nil => simp [ends]
  | cons c before => rfl

/-! ## Lines -/

section Lines

variable {indentation : Option Nat} {widest column line : Nat} {breaks : List Char}

theorem blockBreaks?_append {empty : List Char} (all : ∀ b ∈ empty, isBreak b = true) (rest : List Char) :
    blockBreaks? indentation widest 0 breaks (locate line 0 (empty ++ rest)) =
      blockBreaks? indentation widest 0 (breaks ++ empty) (locate (line + empty.length) 0 rest) := by
  induction empty generalizing line breaks with
  | nil => simp
  | cons b empty ih =>
    obtain ⟨ends, all⟩ := List.forall_mem_cons.mp all
    have white : b ≠ ' ' ∧ b ≠ '\t' := by constructor <;> rintro rfl <;> cases ends
    rw [List.cons_append, locate_cons_of_break ends, blockBreaks?]
    simp [white, ends, ih all, Nat.add_assoc, Nat.add_comm 1]

theorem blockBreaks?_spaces {count : Nat} (deep : ∀ limit ∈ indentation, column + count ≤ limit)
    (rest : List Char) :
    blockBreaks? indentation widest column breaks (locate line column (spaces count ++ rest)) =
      blockBreaks? indentation widest (column + count) breaks (locate line (column + count) rest) := by
  induction count generalizing column with
  | zero => rfl
  | succ count ih =>
    have more : indentation.all (column < ·) = true := by
      rw [Option.all_eq_true]
      intro limit given
      have := deep limit given
      simp
      omega
    rw [locate_spaces, blockBreaks?, ih fun limit given => by have := deep limit given; omega]
    simp [more, Nat.add_assoc, Nat.add_comm 1]

/-- Nothing is skipped before a character at the indentation, nor before one that is no white space. -/
theorem blockBreaks?_solid {c : Char} {rest : List Spot} (inside : isBreak c = false)
    (stops : indentation = some column ∨ c ≠ ' ' ∧ c ≠ '\t') :
    blockBreaks? indentation widest column breaks (⟨c, line, column⟩ :: rest) =
      some ⟨breaks, max widest column, ⟨c, line, column⟩ :: rest⟩ := by
  rw [blockBreaks?]
  rcases stops with rfl | other
  · simp [inside]
  · simp [inside, other]

end Lines

/-- Reads the empty lines at a place in a block and then its further lines. -/
def blockFrom (header : BlockHeader) (indentation fuel : Nat) (state : BlockState) (spots : List Spot) :
    Option Reading :=
  (blockBreaks? (some indentation) 0 0 [] spots).bind fun found =>
    blockLines header indentation fuel { state with empty := found.breaks } found.rest

section Blocks

variable {header : BlockHeader} {depth : Nat} {empty : List Char}

/-- A block ends before a line that is less deep. -/
theorem blockFrom_end (all : ∀ b ∈ empty, isBreak b = true) {outer : Nat} (less : outer < depth)
    {rest : List Char} (starts : StartsLine outer rest) (fuel : Nat) (state : BlockState) (line : Nat) :
    blockFrom header depth (fuel + 1) state (locate line 0 (empty ++ (spaces outer ++ rest))) =
      some ⟨({ state with empty } : BlockState).close header.chomping,
        locate (line + empty.length) outer rest, true⟩ := by
  have deep : ∀ limit ∈ some depth, 0 + outer ≤ limit := by
    rintro _ ⟨⟩
    omega
  rw [blockFrom, blockBreaks?_append all, blockBreaks?_spaces deep, Nat.zero_add]
  cases rest with
  | nil => rfl
  | cons c rest =>
    have solid := (starts.solid c rfl).1
    simp only [isWhite, isBlank, Bool.or_eq_false_iff, decide_eq_false_iff_not] at solid
    rw [locate, blockBreaks?_solid solid.2 (.inr solid.1)]
    simp [blockLines, Nat.ne_of_lt less]

/-- A line of a block is read with the empty lines before it. -/
theorem blockFrom_line (literal : header.folded = false) (all : ∀ b ∈ empty, isBreak b = true)
    {c : Char} {more : List Char} (inline : ∀ d ∈ c :: more, isBreak d = false) {b : Char}
    (ends : isBreak b = true) (fuel : Nat) (state : BlockState) (line : Nat) (rest : List Char) :
    blockFrom header depth (fuel + 1) state
        (locate line 0 (empty ++ (spaces depth ++ (c :: more ++ b :: rest)))) =
      blockFrom header depth fuel
        { chars := state.chars ++ (state.last ++ empty) ++ c :: more, last := [b], empty := [],
          blank := isBlank c }
        (locate (line + empty.length + 1) 0 rest) := by
  have deep : ∀ limit ∈ some depth, 0 + depth ≤ limit := by
    rintro _ ⟨⟩
    omega
  have solid : isBreak c = false := inline c List.mem_cons_self
  have span := span_locate (!isBreak ·) inline (fun d member => by simp [inline d member])
    (show ∀ d ∈ (b :: rest).head?, (!isBreak d) = false by simp [ends]) (line + empty.length) depth
  rw [blockFrom, blockBreaks?_append all, blockBreaks?_spaces deep, Nat.zero_add]
  rw [locate_cons_of_break ends, List.cons_append, locate_cons solid] at span
  rw [List.cons_append, locate_cons solid, blockBreaks?_solid solid (.inl rfl), Option.bind_some, blockLines, span]
  simp only [ne_eq, not_true_eq_false, ↓reduceIte, map_char_locate]
  simp [blockFrom, BlockState.joint, literal]

/-- A line before one that is less deep is the last of its block. -/
theorem blockFrom_lastLine (literal : header.folded = false) (all : ∀ b ∈ empty, isBreak b = true)
    {c : Char} {more : List Char} (inline : ∀ d ∈ c :: more, isBreak d = false) {b : Char}
    (ends : isBreak b = true) {outer : Nat} (less : outer < depth) {rest : List Char}
    (starts : StartsLine outer rest) (fuel : Nat) (state : BlockState) (line : Nat) :
    blockFrom header depth (fuel + 1 + 1) state
        (locate line 0 (empty ++ (spaces depth ++ (c :: more ++ b :: (spaces outer ++ rest))))) =
      some ⟨({ chars := state.chars ++ (state.last ++ empty) ++ c :: more, last := [b],
               empty := [] } : BlockState).close header.chomping,
        locate (line + empty.length + 1) outer rest, true⟩ := by
  have none : ∀ b ∈ ([] : List Char), isBreak b = true := by simp
  rw [blockFrom_line literal all inline ends]
  exact blockFrom_end none less starts fuel _ _

end Blocks

/-! ## Texts -/

/-- A text as a sequence of lines with the empty lines before each; the last line may have no end. -/
inductive Lines : List Char → Prop
  | blank {empty : List Char} (written : empty ≠ []) (all : ∀ b ∈ empty, isBreak b = true) : Lines empty
  | last {empty more : List Char} {c : Char} (all : ∀ b ∈ empty, isBreak b = true)
      (inline : ∀ d ∈ c :: more, isBreak d = false) : Lines (empty ++ c :: more)
  | ended {empty more : List Char} {b c : Char} (all : ∀ b ∈ empty, isBreak b = true)
      (inline : ∀ d ∈ c :: more, isBreak d = false) (ends : isBreak b = true) :
      Lines (empty ++ (c :: more ++ [b]))
  | further {empty more rest : List Char} {b c : Char} (all : ∀ b ∈ empty, isBreak b = true)
      (inline : ∀ d ∈ c :: more, isBreak d = false) (ends : isBreak b = true) (written : rest ≠ [])
      (lines : Lines rest) : Lines (empty ++ (c :: more ++ b :: rest))

/-- A text is cut before its first character of another class. -/
theorem exists_cut (p : Char → Bool) (chars : List Char) :
    ∃ front back, chars = front ++ back ∧ (∀ c ∈ front, p c = true) ∧ ∀ c ∈ back.head?, p c = false := by
  refine ⟨chars.takeWhile p, chars.dropWhile p, (List.takeWhile_append_dropWhile).symm,
    List.all_eq_true.mp (List.all_takeWhile), fun c first => ?_⟩
  have stops := List.head?_dropWhile_not p chars
  rw [Option.mem_def.mp first] at stops
  simpa using stops

theorem Lines.of_ne_nil {chars : List Char} (written : chars ≠ []) : Lines chars := by
  induction size : chars.length using Nat.strongRecOn generalizing chars with
  | _ size ih =>
    obtain ⟨empty, others, rfl, all, first⟩ := exists_cut isBreak chars
    cases others with
    | nil => simpa using Lines.blank (by simpa using written) all
    | cons c others =>
      obtain ⟨more, behind, rfl, inline, ends⟩ := exists_cut (!isBreak ·) others
      have line : ∀ d ∈ c :: more, isBreak d = false :=
        List.forall_mem_cons.mpr ⟨first c rfl, fun d member => by simpa using inline d member⟩
      match behind, ends with
      | [], _ => simpa using Lines.last all line
      | [b], ends => exact Lines.ended all line (by simpa using ends b rfl)
      | b :: d :: rest, ends =>
        refine Lines.further all line (by simpa using ends b rfl) (by simp) (ih _ ?_ (by simp) rfl)
        simp at size ⊢
        omega

theorem indentLines_breaks {empty : List Char} (all : ∀ b ∈ empty, isBreak b = true) (depth : Nat)
    (startsLine : Bool) : indentLines depth startsLine empty = empty := by
  induction empty generalizing startsLine with
  | nil => rfl
  | cons b empty ih =>
    obtain ⟨ends, all⟩ := List.forall_mem_cons.mp all
    rw [indentLines, if_pos ends, ih all]

/-- A line is indented behind the empty lines before it. -/
theorem indentLines_line {empty : List Char} (all : ∀ b ∈ empty, isBreak b = true) {c : Char} {more : List Char}
    (inline : ∀ d ∈ c :: more, isBreak d = false) (depth : Nat) (rest : List Char) :
    indentLines depth true (empty ++ (c :: more ++ rest)) =
      empty ++ (spaces depth ++ (c :: more ++ indentLines depth false rest)) := by
  have starts : endsLine true empty = true := by
    cases empty with
    | nil => rfl
    | cons b empty => exact endsLine_of_breaks (by simp) all true
  rw [indentLines_append, indentLines_breaks all, starts, indentLines_append, indentLines_of_inline inline,
    endsLine_of_inline (by simp) inline]
  simp

/-- The lines of a text are read at its depth, up to a line that is less deep. -/
theorem blockFrom_lines (header : BlockHeader) (literal : header.folded = false) {depth outer : Nat}
    (less : outer < depth) {rest : List Char} (starts : StartsLine outer rest) {chars : List Char}
    (lines : Lines chars) (chomping : header.chomping.mark = chompingMark chars) (state : BlockState)
    (line fuel : Nat) (enough : chars.length < fuel) :
    ∃ below, blockFrom header depth fuel state
        (locate line 0 (ended (indentLines depth true chars) outer rest)) =
      some ⟨state.chars ++ state.last ++ chars, locate below outer rest, true⟩ := by
  induction lines generalizing state line fuel with
  | @blank empty written all =>
    obtain ⟨fuel, rfl⟩ := Nat.exists_eq_add_one_of_ne_zero (show fuel ≠ 0 by omega)
    have keep : header.chomping = .keep :=
      Chomping.mark_injective (chomping.trans (chompingMark_of_breaks written all))
    refine ⟨line + empty.length, ?_⟩
    rw [ended_eq, indentLines_breaks all, endsLine_of_breaks written all, if_pos rfl,
      blockFrom_end all less starts]
    simp [BlockState.close, keep]
  | @last empty more c all inline =>
    obtain ⟨fuel, rfl⟩ : ∃ further, fuel = further + 1 + 1 := ⟨fuel - 2, by simp at enough; omega⟩
    have strip : header.chomping = .strip :=
      Chomping.mark_injective (chomping.trans (chompingMark_of_line _ (by simp) inline))
    have written : indentLines depth true (empty ++ c :: more) = empty ++ (spaces depth ++ c :: more) := by
      simpa [indentLines] using indentLines_line all inline depth []
    have opens : endsLine false (empty ++ (spaces depth ++ c :: more)) = false := by
      rw [endsLine_append, endsLine_append, endsLine_of_inline (by simp) inline]
    have read := blockFrom_lastLine literal all inline isBreak_newline less starts fuel state line
    refine ⟨line + empty.length + 1, ?_⟩
    rw [written, ended_eq, opens]
    simpa [newline, BlockState.close, strip] using read
  | @ended empty more b c all inline ends =>
    obtain ⟨fuel, rfl⟩ : ∃ further, fuel = further + 1 + 1 := ⟨fuel - 2, by simp at enough; omega⟩
    have clip : header.chomping = .clip :=
      Chomping.mark_injective (chomping.trans (chompingMark_of_ended_line _ (by simp) inline ends))
    have written := indentLines_line all inline depth [b]
    rw [indentLines_breaks (List.forall_mem_singleton.mpr ends)] at written
    have closes : endsLine false (empty ++ (spaces depth ++ (c :: more ++ [b]))) = true := by
      simp [ends]
    have read := blockFrom_lastLine literal all inline ends less starts fuel state line
    refine ⟨line + empty.length + 1, ?_⟩
    rw [written, ended_eq, closes]
    simpa [BlockState.close, clip] using read
  | @further empty more behind b c all inline ends more' lines ih =>
    obtain ⟨fuel, rfl⟩ : ∃ further, fuel = further + 1 := ⟨fuel - 1, by omega⟩
    have written : indentLines depth true (empty ++ (c :: more ++ b :: behind)) =
        empty ++ (spaces depth ++ (c :: more ++ [b])) ++ indentLines depth true behind := by
      rw [indentLines_line all inline, indentLines, if_pos ends]
      simp
    have same : header.chomping.mark = chompingMark behind := by
      rw [chomping, ← List.append_assoc, chompingMark_append _ ends more']
    have shape : ended (indentLines depth true (empty ++ (c :: more ++ b :: behind))) outer rest =
        empty ++ (spaces depth ++ (c :: more ++ b :: ended (indentLines depth true behind) outer rest)) := by
      rw [written, ended_append _ (indentLines_ne_nil more' depth true)]
      simp
    obtain ⟨below, read⟩ := ih same ⟨state.chars ++ (state.last ++ empty) ++ c :: more, [b], [], isBlank c⟩
      (line + empty.length + 1) fuel (by simp at enough; omega)
    refine ⟨below, ?_⟩
    rw [shape, blockFrom_line literal all inline ends, read]
    simp

/-! ## Blocks -/

/-- Whether the header of a block has to say how deep it is. -/
def startsLoose (chars : List Char) : Bool := chars.head?.any fun c => c = ' ' || isBreak c

theorem exists_chomping (chars : List Char) : ∃ chomping : Chomping, chomping.mark = chompingMark chars := by
  unfold chompingMark
  split
  · exact ⟨.strip, rfl⟩
  · split
    · exact ⟨.strip, rfl⟩
    · split
      · exact ⟨.keep, rfl⟩
      · exact ⟨.clip, rfl⟩

/-- The depth of a block is found at its first line, unless the header tells it. -/
theorem bind_blockBreaks? (header : BlockHeader) {chars : List Char} (written : chars ≠ [])
    (printable : ∀ c ∈ chars, isPrintable c = true) (depth outer : Nat) (rest : List Char) (line fuel : Nat) :
    let given := if startsLoose chars then some (depth + 2) else none
    let spots := locate line 0 (ended (indentLines (depth + 2) true chars) outer rest)
    ((blockBreaks? given 0 0 [] spots).bind fun found =>
        blockLines header (given.getD (max found.widest (max (depth + 1) 1))) fuel { empty := found.breaks }
          found.rest) =
      blockFrom header (depth + 2) fuel { empty := [] } spots := by
  intro given spots
  by_cases loose : startsLoose chars = true
  · simp only [given, loose, ↓reduceIte, Option.getD_some]
    rfl
  · obtain ⟨c, tail, rfl⟩ := List.exists_cons_of_ne_nil written
    have solid : c ≠ ' ' ∧ isBreak c = false := by simpa [startsLoose] using loose
    have tab : c ≠ '\t' := by
      rintro rfl
      exact absurd (printable '\t' List.mem_cons_self) (by decide)
    obtain ⟨behind, shape⟩ : ∃ behind, ended (indentLines (depth + 2) true (c :: tail)) outer rest =
        spaces (depth + 2) ++ c :: behind := by
      rw [indentLines, if_neg (by simp [solid]), if_pos rfl, ended_append _ (by simp)]
      exact ⟨_, rfl⟩
    have found : ∀ indentation : Option Nat, (∀ limit ∈ indentation, 0 + (depth + 2) ≤ limit) →
        blockBreaks? indentation 0 0 [] spots =
          some ⟨[], depth + 2, ⟨c, line, depth + 2⟩ :: locate line (depth + 2 + 1) behind⟩ := by
      intro indentation limits
      have stops : blockBreaks? indentation 0 (depth + 2) []
          (⟨c, line, depth + 2⟩ :: locate line (depth + 2 + 1) behind) = some ⟨[], max 0 (depth + 2), _⟩ :=
        blockBreaks?_solid solid.2 (.inr ⟨solid.1, tab⟩)
      simp only [spots]
      rw [shape, blockBreaks?_spaces limits, Nat.zero_add, locate_cons solid.2, stops, Nat.zero_max]
    simp only [given, loose, blockFrom]
    rw [if_neg (by simp), found none (by simp), found (some (depth + 2)) (by simp)]
    simp

/-- A literal block is read behind its first mark. -/
theorem block?_literal {chars : List Char} (written : chars ≠ [])
    (printable : ∀ c ∈ chars, isPrintable c = true) {depth outer : Nat} (less : outer ≤ depth)
    {rest : List Char} (starts : StartsLine outer rest) (line column : Nat) :
    ∃ below, block? false (depth + 1)
        (locate line column (ended (literal (depth + 2) chars).tail outer rest)) =
      some ⟨chars, locate below outer rest, true⟩ := by
  obtain ⟨chomping, marked⟩ := exists_chomping chars
  have shape : ended (literal (depth + 2) chars).tail outer rest =
      (if startsLoose chars then ['2'] else []) ++ chomping.mark ++
        '\n' :: ended (indentLines (depth + 2) true chars) outer rest := by
    have split : (literal (depth + 2) chars).tail = (if startsLoose chars then ['2'] else []) ++
        chomping.mark ++ ['\n'] ++ indentLines (depth + 2) true chars := by
      rw [marked]
      simp only [literal, literalHeader, List.cons_append, List.tail_cons, List.append_assoc]
      rfl
    rw [split, ended_append _ (indentLines_ne_nil written _ true)]
    simp
  have given : (if startsLoose chars then some 2 else none).map
      (fun digit => if depth + 1 = 0 then digit else depth + 1 - 1 + digit) =
        if startsLoose chars then some (depth + 2) else none := by
    cases startsLoose chars <;> rfl
  have enough : chars.length <
      (locate (line + 1) 0 (ended (indentLines (depth + 2) true chars) outer rest)).length + 1 := by
    have := length_le_indentLines (depth + 2) true chars
    simp only [length_locate, ended_eq, List.length_append]
    omega
  obtain ⟨below, read⟩ := blockFrom_lines ⟨false, chomping, if startsLoose chars then some 2 else none⟩ rfl
    (show outer < depth + 2 by omega) starts (Lines.of_ne_nil written) marked { empty := [] } (line + 1) _ enough
  rw [← bind_blockBreaks? _ written printable] at read
  refine ⟨below, ?_⟩
  rw [shape, block?, marks?_header]
  simp only [Option.bind_eq_bind, Option.bind_some, endLine?_newline, given]
  exact read

end ClassModel.Document.Yaml
