import ClassModel.Proofs.Numerals
import ClassModel.Proofs.YamlPlain

/-! # Quoted scalars are read back

A text in double quotes stays on its line. A text in single quotes may have several lines; the reader
folds the white space between them, which loses nothing of what single quotes are used for
(`OpenGap`).
-/

namespace ClassModel.Document.Yaml

/-! ## Double quotes -/

/-- A hexadecimal digit is written as it is. -/
theorem clean_hexDigits {width code : Nat} (d : Char) (written : d ∈ hexDigits width code) :
    isPrintable d = true ∧ isBreak d = false := by
  have all : ∀ digit ∈ List.range 16, isPrintable (hexDigit digit) = true ∧ isBreak (hexDigit digit) = false := by
    decide
  induction width generalizing code with
  | zero => cases written
  | succ width ih =>
    rcases List.mem_append.mp written with front | last
    · exact ih front
    · obtain rfl := List.mem_singleton.mp last
      exact all _ (List.mem_range.mpr (Nat.mod_lt _ (by decide)))

theorem escape?_letter {letter c : Char} (stands : unescape? letter = some c)
    (alone : escapeWidth? letter = none) (inline : isBreak letter = false) (line column : Nat) (rest : List Char) :
    escape? (locate line column (letter :: rest)) = some (c, locate line (column + 1) rest) := by
  rw [locate_cons inline]
  simp [escape?, alone, stands]

theorem escape?_hexDigits {mark : Char} {width : Nat} {c : Char} (wide : escapeWidth? mark = some width)
    (solid : isBreak mark = false) (positive : 0 < width) (fits : c.toNat < 16 ^ width) (line column : Nat) (rest : List Char) :
    escape? (locate line column (mark :: hexDigits width c.toNat ++ rest)) =
      some (c, locate line (column + 1 + width) rest) := by
  have inline : ∀ d ∈ mark :: hexDigits width c.toNat, isBreak d = false :=
    List.forall_mem_cons.mpr ⟨solid, fun d written => (clean_hexDigits d written).2⟩
  have code : Text.natural? 16 (hexDigits width c.toNat) = some c.toNat :=
    Text.natural?_hexDigits positive fits
  have valid : c.toNat.isValidChar := c.valid
  rw [locate_append_of_inline inline, locate_cons (inline mark List.mem_cons_self), List.cons_append, escape?]
  have count : (locate line (column + 1) (hexDigits width c.toNat)).length = width := by
    rw [length_locate, Text.length_hexDigits]
  simp [wide, count, code, character?, valid, Char.ofNat_toNat, Text.length_hexDigits, Nat.add_assoc,
    Nat.add_comm 1]

/-- The letter behind a backslash stands for the character that it was written for. -/
theorem escapeLetter?_spec {c letter : Char} (stands : escapeLetter? c = some letter) :
    unescape? letter = some c ∧ escapeWidth? letter = none ∧ isPrintable letter = true ∧ isBreak letter = false := by
  obtain ⟨before, after, table, -⟩ := List.lookup_eq_some_iff.mp stands
  have known : (c, letter) ∈ before ++ (c, letter) :: after := by simp
  rw [← table] at known
  simp only [List.mem_cons, Prod.mk.injEq, List.not_mem_nil, or_false] at known
  rcases known with ⟨rfl, rfl⟩ | ⟨rfl, rfl⟩ | ⟨rfl, rfl⟩ | ⟨rfl, rfl⟩ | ⟨rfl, rfl⟩ | ⟨rfl, rfl⟩ |
    ⟨rfl, rfl⟩ | ⟨rfl, rfl⟩ | ⟨rfl, rfl⟩ | ⟨rfl, rfl⟩ | ⟨rfl, rfl⟩ | ⟨rfl, rfl⟩ | ⟨rfl, rfl⟩ |
    ⟨rfl, rfl⟩ | ⟨rfl, rfl⟩ <;> decide

/-- What stands behind a backslash is read as the character that was written. -/
theorem escaped_spec (c : Char) : ∃ first others, escaped c = '\\' :: first :: others ∧ isBreak first = false ∧
    ∀ line column rest, escape? (locate line column (first :: others ++ rest)) =
      some (c, locate line (column + (first :: others).length) rest) := by
  have small : c.toNat < 0x110000 := by
    rcases c.valid with low | high
    · exact Nat.lt_trans low (by decide)
    · exact high.2
  have number (mark : Char) (width : Nat) (wide : escapeWidth? mark = some width) (solid : isBreak mark = false)
      (positive : 0 < width) (fits : c.toNat < 16 ^ width) (line column : Nat) (rest : List Char) :
      escape? (locate line column (mark :: hexDigits width c.toNat ++ rest)) =
        some (c, locate line (column + (mark :: hexDigits width c.toNat).length) rest) := by
    rw [escape?_hexDigits wide solid positive fits, List.length_cons, Text.length_hexDigits, Nat.add_assoc,
      Nat.add_comm 1]
  unfold escaped
  split
  · rename_i letter stands
    obtain ⟨stands, alone, -, inline⟩ := escapeLetter?_spec stands
    exact ⟨letter, [], rfl, inline, escape?_letter stands alone inline⟩
  · split
    · exact ⟨'x', _, rfl, by decide, number 'x' 2 rfl (by decide) (by decide) (by omega)⟩
    · split
      · exact ⟨'u', _, rfl, by decide, number 'u' 4 rfl (by decide) (by decide) (by omega)⟩
      · exact ⟨'U', _, rfl, by decide, number 'U' 8 rfl (by decide) (by decide) (by omega)⟩

/-- Between double quotes every character is written as it is. -/
theorem clean_doubleQuotedChar {c : Char} (d : Char) (written : d ∈ doubleQuotedChar c) :
    isPrintable d = true ∧ isBreak d = false := by
  have backslash : isPrintable '\\' = true ∧ isBreak '\\' = false := by decide
  have number {mark : Char} {width : Nat} (clean : isPrintable mark = true ∧ isBreak mark = false)
      (written : d ∈ '\\' :: mark :: hexDigits width c.toNat) : isPrintable d = true ∧ isBreak d = false := by
    rcases List.mem_cons.mp written with rfl | written
    · exact backslash
    · rcases List.mem_cons.mp written with rfl | written
      · exact clean
      · exact clean_hexDigits d written
  unfold doubleQuotedChar at written
  split at written
  · unfold escaped at written
    split at written
    · rename_i letter stands
      simp only [List.mem_cons, List.not_mem_nil, or_false] at written
      rcases written with rfl | rfl
      · exact backslash
      · exact (escapeLetter?_spec stands).2.2
    · split at written
      · exact number (by decide) written
      · split at written
        · exact number (by decide) written
        · exact number (by decide) written
  · rename_i unmarked
    obtain rfl := List.mem_singleton.mp written
    simp only [Bool.or_eq_true, Bool.not_eq_true', decide_eq_true_eq, not_or, Bool.not_eq_false,
      Bool.not_eq_true] at unmarked
    exact unmarked.1.1

section DoubleQuotes

variable {fuel : Nat} {before : List Char} {gap : Gap} {spot : Spot} {rest : List Spot}

/-- A character that stands for itself between double quotes. -/
theorem doubleQuotedFrom_solid (goesOn : atDocumentEnd (spot :: rest) = false) (quote : spot.char ≠ '"')
    (backslash : spot.char ≠ '\\') :
    doubleQuotedFrom (fuel + 1) before gap (spot :: rest) =
      if isWhite spot.char then doubleQuotedFrom fuel before (gap.add spot.char) rest
      else doubleQuotedFrom fuel (before ++ gap.fold ++ [spot.char]) .none rest := by
  cases rest <;> simp [doubleQuotedFrom, goesOn, quote, backslash]

/-- A character behind a backslash. -/
theorem doubleQuotedFrom_escape {c : Char} {next : Spot} {others behind : List Spot}
    (goesOn : atDocumentEnd (spot :: next :: others) = false) (backslash : spot.char = '\\')
    (inline : isBreak next.char = false) (read : escape? (next :: others) = some (c, behind)) :
    doubleQuotedFrom (fuel + 1) before gap (spot :: next :: others) =
      doubleQuotedFrom fuel (before ++ gap.fold ++ [c]) .none behind := by
  simp [doubleQuotedFrom, goesOn, backslash, inline, read, show isWhite '\\' = false by decide]

end DoubleQuotes

/-- The reader of double quotes goes through a text up to the closing quote. -/
theorem doubleQuotedFrom_text (line : Nat) (rest chars : List Char) {column : Nat} (inside : 0 < column)
    (before blanks : List Char) {fuel : Nat} (enough : (chars.flatMap doubleQuotedChar).length < fuel) :
    doubleQuotedFrom fuel before (.blanks blanks)
        (locate line column (chars.flatMap doubleQuotedChar ++ '"' :: rest)) =
      some ⟨before ++ blanks ++ chars,
        locate line (column + (chars.flatMap doubleQuotedChar).length + 1) rest, false⟩ := by
  obtain ⟨fuel, rfl⟩ := Nat.exists_eq_add_one_of_ne_zero (show fuel ≠ 0 by omega)
  have goesOn := atDocumentEnd_locate_of_pos inside line (chars.flatMap doubleQuotedChar ++ '"' :: rest)
  induction chars generalizing column before blanks fuel with
  | nil =>
    rw [List.flatMap_nil, List.nil_append, locate_cons (show isBreak '"' = false by decide)] at goesOn ⊢
    simp [doubleQuotedFrom, goesOn, show isWhite '"' = false by decide, Gap.fold]
  | cons c others ih =>
    rw [List.flatMap_cons, List.append_assoc] at goesOn ⊢
    rw [List.flatMap_cons, List.length_append] at enough
    by_cases marked : (!isPrintable c || isBreak c || c = '"' || c = '\\') = true
    · have written : doubleQuotedChar c = escaped c := if_pos marked
      obtain ⟨first, more, shape, inline, read⟩ := escaped_spec c
      rw [written, shape] at enough
      rw [List.length_cons] at enough
      obtain ⟨fuel, rfl⟩ := Nat.exists_eq_add_one_of_ne_zero (show fuel ≠ 0 by omega)
      have found := read line (column + 1) (others.flatMap doubleQuotedChar ++ '"' :: rest)
      have inside' : 0 < column + 1 + (first :: more).length := by omega
      have further := ih inside'
        (before ++ blanks ++ [c]) [] fuel (by omega) (atDocumentEnd_locate_of_pos (by omega) _ _)
      have place : column + (doubleQuotedChar c ++ others.flatMap doubleQuotedChar).length + 1 =
          column + 1 + (first :: more).length + (others.flatMap doubleQuotedChar).length + 1 := by
        simp only [written, shape, List.length_append, List.length_cons]
        omega
      rw [place]
      rw [written, shape, List.cons_append, locate_cons (show isBreak '\\' = false by decide),
        List.cons_append, locate_cons inline] at goesOn ⊢
      rw [List.cons_append, locate_cons inline] at found
      rw [doubleQuotedFrom_escape goesOn rfl inline found]
      simpa [Gap.none, Gap.fold] using further
    · have written : doubleQuotedChar c = [c] := if_neg marked
      simp only [Bool.or_eq_true, Bool.not_eq_true', decide_eq_true_eq, not_or, Bool.not_eq_false,
        Bool.not_eq_true] at marked
      obtain ⟨⟨⟨printable, solid⟩, quote⟩, backslash⟩ := marked
      rw [written, List.singleton_append, locate_cons solid] at goesOn ⊢
      rw [written, List.length_singleton] at enough
      obtain ⟨fuel, rfl⟩ := Nat.exists_eq_add_one_of_ne_zero (show fuel ≠ 0 by omega)
      have next := atDocumentEnd_locate_of_pos (Nat.succ_pos column) line
        (others.flatMap doubleQuotedChar ++ '"' :: rest)
      rw [doubleQuotedFrom_solid goesOn quote backslash]
      by_cases space : c = ' '
      · subst space
        have read := ih (Nat.succ_pos column) before (blanks ++ [' ']) fuel (by omega) next
        simpa [written, isWhite, isBlank, Gap.add, isBreak_space, Nat.add_assoc, Nat.add_comm,
          Nat.add_left_comm] using read
      · have read := ih (Nat.succ_pos column) (before ++ blanks ++ [c]) [] fuel (by omega) next
        simpa [written, isWhite_eq_false printable solid space, Gap.none, Gap.fold, Nat.add_assoc,
          Nat.add_comm, Nat.add_left_comm] using read

/-! ## Single quotes -/

/-- A character as it stands between single quotes. -/
def singleQuotedChar (c : Char) : List Char := if c = '\'' then ['\'', '\''] else [c]

/-- What stands between single quotes, given whether a line has just ended. -/
def quotedLines (depth : Nat) : Bool → List Char → List Char
  | startsLine, [] => if startsLine then spaces depth else []
  | startsLine, c :: rest =>
    if isBreak c then c :: quotedLines depth true rest
    else (if startsLine then spaces depth else []) ++ singleQuotedChar c ++ quotedLines depth false rest

theorem inline_singleQuotedChar {c : Char} (solid : isBreak c = false) :
    ∀ d ∈ singleQuotedChar c, isBreak d = false := by
  unfold singleQuotedChar
  split <;> simp [solid, show isBreak '\'' = false by decide]

theorem indentLines_quoted (depth : Nat) (startsLine : Bool) (chars : List Char) :
    indentLines depth startsLine (chars.flatMap singleQuotedChar) ++
        (if endsLine startsLine (chars.flatMap singleQuotedChar) then spaces depth else []) =
      quotedLines depth startsLine chars := by
  induction chars generalizing startsLine with
  | nil => rfl
  | cons c rest ih =>
    rw [List.flatMap_cons, indentLines_append, endsLine_append, List.append_assoc, ih, quotedLines]
    unfold singleQuotedChar
    split
    · rename_i quote
      simp [quote, indentLines, show isBreak '\'' = false by decide]
    · split <;> simp [indentLines, *]

theorem singleQuoted_eq (depth : Nat) (chars : List Char) :
    singleQuoted depth chars = '\'' :: (quotedLines depth false chars ++ ['\'']) := by
  rw [← indentLines_quoted, ← any_getLast?]
  rfl

theorem quotedLines_of_inline {chars : List Char} (inline : ∀ c ∈ chars, isBreak c = false) (depth : Nat) :
    quotedLines depth false chars = chars.flatMap singleQuotedChar := by
  induction chars with
  | nil => rfl
  | cons c rest ih =>
    obtain ⟨solid, inline⟩ := List.forall_mem_cons.mp inline
    rw [quotedLines, if_neg (by simp [solid]), ih inline]
    rfl

/-- What can be written between single quotes and read back. -/
structure IsSingleQuotable (chars : List Char) : Prop where
  printable : ∀ c ∈ chars, isPrintable c = true
  newline : ∀ c ∈ chars, c ≠ '\n'
  breakSpace : hasNeighbours isBreak (· = ' ') chars = false
  spaceBreak : hasNeighbours (· = ' ') isBreak chars = false

theorem hasNeighbours_cons {first second : Char → Bool} {c : Char} {rest : List Char}
    (none : hasNeighbours first second (c :: rest) = false) :
    (first c = true → ∀ d ∈ rest.head?, second d = false) ∧ hasNeighbours first second rest = false := by
  cases rest with
  | nil => exact ⟨fun _ _ none => (nomatch none), rfl⟩
  | cons d tail =>
    rw [hasNeighbours, Bool.or_eq_false_iff, Bool.and_eq_false_iff] at none
    refine ⟨?_, none.2⟩
    rintro starts _ ⟨⟩
    exact none.1.resolve_left (by simp [starts])

theorem IsSingleQuotable.tail {c : Char} {rest : List Char} (text : IsSingleQuotable (c :: rest)) :
    IsSingleQuotable rest where
  printable := (List.forall_mem_cons.mp text.printable).2
  newline := (List.forall_mem_cons.mp text.newline).2
  breakSpace := (hasNeighbours_cons text.breakSpace).2
  spaceBreak := (hasNeighbours_cons text.spaceBreak).2

section SingleQuotes

variable {before : List Char} {gap : Gap} {spot : Spot} {rest : List Spot}

theorem singleQuotedFrom_white (goesOn : atDocumentEnd (spot :: rest) = false) (white : isWhite spot.char = true) :
    singleQuotedFrom before gap (spot :: rest) = singleQuotedFrom before (gap.add spot.char) rest := by
  cases rest <;> simp [singleQuotedFrom, goesOn, white]

theorem singleQuotedFrom_solid (goesOn : atDocumentEnd (spot :: rest) = false)
    (dark : isWhite spot.char = false) (quote : spot.char ≠ '\'') :
    singleQuotedFrom before gap (spot :: rest) =
      singleQuotedFrom (before ++ gap.fold ++ [spot.char]) .none rest := by
  cases rest <;> simp [singleQuotedFrom, goesOn, dark, quote]

theorem singleQuotedFrom_doubled {next : Spot} (goesOn : atDocumentEnd (spot :: next :: rest) = false)
    (quote : spot.char = '\'') (again : next.char = '\'') :
    singleQuotedFrom before gap (spot :: next :: rest) =
      singleQuotedFrom (before ++ gap.fold ++ ['\'']) .none rest := by
  simp [singleQuotedFrom, goesOn, quote, again, show isWhite '\'' = false by decide]

theorem singleQuotedFrom_close (goesOn : atDocumentEnd (spot :: rest) = false) (quote : spot.char = '\'')
    (alone : ∀ next ∈ rest.head?, next.char ≠ '\'') :
    singleQuotedFrom before gap (spot :: rest) = some ⟨before ++ gap.fold, rest, false⟩ := by
  cases rest with
  | nil => simp [singleQuotedFrom, goesOn, quote, show isWhite '\'' = false by decide]
  | cons next others =>
    simp [singleQuotedFrom, goesOn, quote, alone next rfl, show isWhite '\'' = false by decide]

end SingleQuotes

/-- Spaces at the start of a further line do not count. -/
theorem singleQuotedFrom_spaces (count line column : Nat) (before : List Char) (first : Option Char)
    (further rest : List Char) :
    singleQuotedFrom before (.breaks first further) (locate line column (spaces count ++ rest)) =
      singleQuotedFrom before (.breaks first further) (locate line (column + count) rest) := by
  induction count generalizing column with
  | zero => rfl
  | succ count ih =>
    have white : isWhite ' ' = true := by decide
    rw [locate_spaces, singleQuotedFrom_white (atDocumentEnd_of_isWhite white _) white]
    simp [Gap.add, isBreak_space, ih, Nat.add_assoc, Nat.add_comm 1]

/-- A character inside a line. -/
theorem singleQuotedFrom_char {c : Char} (dark : isWhite c = false) {column : Nat} (inside : 0 < column)
    (line : Nat) (before : List Char) (gap : Gap) (rest : List Char) :
    singleQuotedFrom before gap (locate line column (singleQuotedChar c ++ rest)) =
      singleQuotedFrom (before ++ gap.fold ++ [c]) .none
        (locate line (column + (singleQuotedChar c).length) rest) := by
  have goesOn := atDocumentEnd_locate_of_pos inside line (singleQuotedChar c ++ rest)
  have solid := isBreak_eq_false dark
  by_cases quote : c = '\''
  · subst quote
    rw [show singleQuotedChar '\'' = ['\'', '\''] from rfl, List.cons_append, locate_cons solid,
      List.cons_append, locate_cons solid] at goesOn ⊢
    rw [singleQuotedFrom_doubled goesOn rfl rfl]
    rfl
  · rw [show singleQuotedChar c = [c] from if_neg quote, List.singleton_append, locate_cons solid] at goesOn ⊢
    rw [singleQuotedFrom_solid goesOn dark quote]
    rfl

/-- A single quote alone ends the text. -/
theorem singleQuotedFrom_end {column : Nat} (inside : 0 < column) (line : Nat) (before : List Char) (gap : Gap)
    {rest : List Char} (next : ∀ c ∈ rest.head?, c ≠ '\'') :
    singleQuotedFrom before gap (locate line column ('\'' :: rest)) =
      some ⟨before ++ gap.fold, locate line (column + 1) rest, false⟩ := by
  have goesOn := atDocumentEnd_locate_of_pos inside line ('\'' :: rest)
  rw [locate_cons (show isBreak '\'' = false by decide)] at goesOn ⊢
  refine singleQuotedFrom_close goesOn rfl ?_
  cases rest with
  | nil => rintro _ ⟨⟩
  | cons c rest =>
    rintro _ ⟨⟩
    exact next c rfl

theorem Gap.fold_breaks {first : Char} (kept : first ≠ '\n') (further : List Char) :
    (Gap.breaks (some first) further).fold = first :: further := by
  unfold Gap.fold
  split <;> simp_all

/-- White space before the rest of a text, of which nothing is lost: a line ends neither before nor
behind a space, and not in a newline. -/
inductive OpenGap (chars : List Char) : Bool → Gap → Prop
  | inline {blanks : List Char} (tight : blanks ≠ [] → ∀ c ∈ chars.head?, isBreak c = false) :
      OpenGap chars false (.blanks blanks)
  | broken {first : Char} {further : List Char} (kept : first ≠ '\n') (tight : ∀ c ∈ chars.head?, c ≠ ' ') :
      OpenGap chars true (.breaks (some first) further)

/-- The end of a line is kept in the gap. -/
theorem OpenGap.add_break {c : Char} {rest : List Char} {startsLine : Bool} {gap : Gap}
    (opens : OpenGap (c :: rest) startsLine gap) (text : IsSingleQuotable (c :: rest)) (ends : isBreak c = true) :
    OpenGap rest true (gap.add c) ∧ (gap.add c).fold = gap.fold ++ [c] := by
  have tight' : ∀ d ∈ rest.head?, d ≠ ' ' := fun d head =>
    of_decide_eq_false ((hasNeighbours_cons text.breakSpace).1 ends d head)
  cases opens with
  | @inline blanks tight =>
    have kept := text.newline c List.mem_cons_self
    have none : blanks = [] := by
      by_contra some
      exact absurd ends (by simp [tight some c rfl])
    simp only [none, Gap.add, ends, ↓reduceIte, Gap.fold_breaks kept]
    exact ⟨.broken kept tight', rfl⟩
  | @broken first further kept tight =>
    simp only [Gap.add, ends, ↓reduceIte, Gap.fold_breaks kept]
    exact ⟨.broken kept tight', rfl⟩

/-- What is left of a text is read up to the closing quote. -/
def ReadsQuoted (depth : Nat) (startsLine : Bool) (gap : Gap) (chars : List Char) : Prop :=
  ∀ (line column : Nat) (before rest : List Char), (startsLine = false → 0 < column) →
    (∀ c ∈ rest.head?, c ≠ '\'') →
    singleQuotedFrom before gap (locate line column (quotedLines depth startsLine chars ++ '\'' :: rest)) =
      some ⟨before ++ gap.fold ++ chars,
        locate (lineAfter line (quotedLines depth startsLine chars))
          (columnAfter column (quotedLines depth startsLine chars) + 1) rest, false⟩

namespace ReadsQuoted

variable {depth : Nat} {startsLine : Bool} {gap : Gap} {c : Char} {others : List Char}

theorem nil (deep : 0 < depth) (opens : OpenGap [] startsLine gap) : ReadsQuoted depth startsLine gap [] := by
  intro line column before rest inside next
  cases opens with
  | inline tight =>
    simpa [quotedLines] using singleQuotedFrom_end (inside rfl) line before _ next
  | @broken first further kept tight =>
    have read := singleQuotedFrom_end (show 0 < column + depth by omega) line before
      (.breaks (some first) further) next
    simpa [quotedLines, singleQuotedFrom_spaces] using read

theorem lineEnd (ends : isBreak c = true) (kept : (gap.add c).fold = gap.fold ++ [c])
    (reads : ReadsQuoted depth true (gap.add c) others) : ReadsQuoted depth startsLine gap (c :: others) := by
  intro line column before rest _ next
  have white : isWhite c = true := by simp [isWhite, ends]
  rw [quotedLines, if_pos ends, List.cons_append, locate_cons_of_break ends,
    singleQuotedFrom_white (atDocumentEnd_of_isWhite white _) white, lineAfter, if_pos ends, columnAfter,
    if_pos ends, reads (line + 1) 0 before rest (fun none => absurd none.symm Bool.false_ne_true) next]
  simp [kept]

theorem space {blanks : List Char} (reads : ReadsQuoted depth false (.blanks (blanks ++ [' '])) others) :
    ReadsQuoted depth false (.blanks blanks) (' ' :: others) := by
  intro line column before rest inside next
  have white : isWhite ' ' = true := by decide
  have same : quotedLines depth false (' ' :: others) = ' ' :: quotedLines depth false others := rfl
  have read := reads line (column + 1) before rest (fun _ => Nat.succ_pos column) next
  rw [same, List.cons_append, locate_cons isBreak_space,
    singleQuotedFrom_white (atDocumentEnd_of_isWhite white _) white]
  simpa [Gap.add, Gap.fold, isBreak_space, lineAfter, columnAfter] using read

theorem char (deep : 0 < depth) (opens : OpenGap (c :: others) startsLine gap) (dark : isWhite c = false)
    (reads : ReadsQuoted depth false .none others) : ReadsQuoted depth startsLine gap (c :: others) := by
  intro line column before rest inside next
  have solid := isBreak_eq_false dark
  have written := after_of_inline (inline_singleQuotedChar solid) line
  have read : ∀ column, 0 < column →
      singleQuotedFrom before gap
          (locate line column (singleQuotedChar c ++ (quotedLines depth false others ++ '\'' :: rest))) =
        some ⟨before ++ gap.fold ++ c :: others,
          locate (lineAfter line (singleQuotedChar c ++ quotedLines depth false others))
            (columnAfter column (singleQuotedChar c ++ quotedLines depth false others) + 1) rest, false⟩ := by
    intro column inside
    rw [singleQuotedFrom_char dark inside, reads line _ _ rest (fun _ => by omega) next, lineAfter_append,
      columnAfter_append, (written column).1, (written column).2]
    simp [Gap.none, Gap.fold]
  rw [quotedLines, if_neg (by simp [solid])]
  cases opens with
  | inline tight => simpa using read column (inside rfl)
  | broken kept tight =>
    simpa [singleQuotedFrom_spaces, lineAfter_append, columnAfter_append] using
      read (column + depth) (by omega)

end ReadsQuoted

/-- The reader of single quotes goes through a text up to the closing quote. -/
theorem readsQuoted {depth : Nat} (deep : 0 < depth) {chars : List Char} (text : IsSingleQuotable chars)
    {startsLine : Bool} {gap : Gap} (opens : OpenGap chars startsLine gap) :
    ReadsQuoted depth startsLine gap chars := by
  induction chars generalizing startsLine gap with
  | nil => exact .nil deep opens
  | cons c others ih =>
    by_cases ends : isBreak c = true
    · obtain ⟨opens', kept⟩ := opens.add_break text ends
      exact .lineEnd ends kept (ih text.tail opens')
    · rw [Bool.not_eq_true] at ends
      by_cases space : c = ' '
      · subst space
        cases opens with
        | inline tight =>
          exact .space (ih text.tail (.inline fun _ => (hasNeighbours_cons text.spaceBreak).1 rfl))
        | broken kept tight => exact absurd rfl (tight ' ' rfl)
      · exact .char deep opens (isWhite_eq_false (text.printable c List.mem_cons_self) ends space)
          (ih text.tail (.inline (absurd rfl)))

end ClassModel.Document.Yaml
