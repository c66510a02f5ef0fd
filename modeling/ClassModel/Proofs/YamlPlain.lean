import ClassModel.Proofs.YamlLines

/-! # Plain scalars are read back

A text without marks around it is read to its end, whatever stands inside: the rules of the style keep
out what would end it early. It ends at a colon behind a key and at a line that is less deep.
-/

namespace ClassModel.Document.Yaml

/-! ## Classes of characters -/

theorem ne_tab_of_isPrintable {c : Char} (printable : isPrintable c = true) : c ≠ '\t' := by
  rintro rfl
  exact absurd printable (by decide)

/-- The only white space that is written inside a line is the space. -/
theorem isWhite_eq_false {c : Char} (printable : isPrintable c = true) (inside : isBreak c = false)
    (solid : c ≠ ' ') : isWhite c = false := by
  simp [isWhite, isBlank, inside, ne_tab_of_isPrintable printable, solid]

/-! ## Plain scalars -/

/-- What a plain scalar can consist of behind its first character. -/
structure IsPlainTail (chars : List Char) : Prop where
  printable : ∀ c ∈ chars, isPrintable c = true
  inline : ∀ c ∈ chars, isBreak c = false
  last : ∀ c ∈ chars.getLast?, c ≠ ' '
  clear : misleadsInside chars = false

/-- A text that can be written without any marks. -/
structure IsPlain (chars : List Char) : Prop extends IsPlainTail chars where
  written : chars ≠ []
  first : ∀ c ∈ chars.head?, c ≠ ' '
  marker : startsLikeMarker chars = false
  start : misleadsAtStart chars = false

theorem IsPlain.of_allowsPlain {chars : List Char} (written : chars ≠ [])
    (allowed : Profile.allowsPlain ⟨chars⟩ = true) : IsPlain chars := by
  simp only [Profile.allowsPlain, Profile.hasLooseEnd, Profile.hasBreak, Profile.hasSpecial,
    Bool.and_eq_true, Bool.not_eq_true', Bool.or_eq_false_iff, Option.any_eq_false, List.any_eq_false,
    decide_eq_false_iff_not, Bool.not_eq_true, Bool.not_eq_false] at allowed
  obtain ⟨⟨⟨⟨⟨⟨first, last⟩, inline⟩, printable⟩, marker⟩, start⟩, clear⟩ := allowed
  exact ⟨⟨printable, inline, fun c final => (last c final).1, clear⟩, written,
    fun c head => (first c head).1, marker, start⟩

theorem misleadsInside_cons {c d : Char} {rest : List Char} (clear : misleadsInside (c :: d :: rest) = false) :
    (c = ':' → isWhite d = false) ∧ (isWhite c = true → d ≠ '#') ∧ misleadsInside (d :: rest) = false := by
  simp only [misleadsInside, Bool.or_eq_false_iff, Bool.and_eq_false_iff, decide_eq_false_iff_not] at clear
  obtain ⟨⟨colon, sign⟩, clear⟩ := clear
  exact ⟨fun same => colon.resolve_left (absurd same), fun white => sign.resolve_left (by simp [white]), clear⟩

namespace IsPlainTail

theorem tail {c d : Char} {rest : List Char} (plain : IsPlainTail (c :: d :: rest)) : IsPlainTail (d :: rest) where
  printable := (List.forall_mem_cons.mp plain.printable).2
  inline := (List.forall_mem_cons.mp plain.inline).2
  last := by simpa using plain.last
  clear := (misleadsInside_cons plain.clear).2.2

variable {c : Char} {others : List Char}

/-- A colon inside a plain scalar does not end it. -/
theorem not_endsPlain (plain : IsPlainTail (c :: others)) (line column : Nat) (rest : List Char) :
    endsPlain false (⟨c, line, column⟩ :: locate line (column + 1) (others ++ rest)) = false := by
  simp only [endsPlain, Bool.false_and, Bool.or_false, Bool.and_eq_false_imp, decide_eq_true_eq]
  rintro rfl
  cases others with
  | nil => exact absurd plain.clear (by decide)
  | cons d tail =>
    rw [List.cons_append, locate_cons (plain.inline d (by simp))]
    exact (misleadsInside_cons plain.clear).1 rfl

end IsPlainTail

/-- The reader of plain scalars goes through a text to its end. -/
theorem plainFrom_text (floor line : Nat) (rest : List Char) {chars : List Char} (written : chars ≠ [])
    (plain : IsPlainTail chars) (column : Nat) (before : List Char) {blanks : List Char}
    (sign : blanks ≠ [] → chars.head? ≠ some '#')
    (inside : atDocumentEnd (locate line column (chars ++ rest)) = false) :
    plainFrom false floor before (.blanks blanks) (locate line column (chars ++ rest)) =
      plainFrom false floor (before ++ blanks ++ chars) .none
        (locate line (column + chars.length) rest) := by
  -- blanks count only if the text goes on behind them, so the reader keeps them until it does
  induction chars generalizing column before blanks with
  | nil => exact absurd rfl written
  | cons c others ih =>
    have solid : isBreak c = false := plain.inline c List.mem_cons_self
    rw [List.cons_append, locate_cons solid] at inside ⊢
    have next : atDocumentEnd (locate line (column + 1) (others ++ rest)) = false :=
      atDocumentEnd_locate_of_pos (Nat.succ_pos column) _ _
    rw [plainFrom]
    by_cases space : c = ' '
    · subst space
      cases others with
      | nil => exact absurd rfl (plain.last ' ' rfl)
      | cons d tail =>
        have sign' : blanks ++ [' '] ≠ [] → (d :: tail).head? ≠ some '#' := fun _ same =>
          (misleadsInside_cons plain.clear).2.1 (by decide) (Option.some.inj same)
        have read := ih (by simp) plain.tail (column + 1) before sign' next
        simpa [isWhite, isBlank, Gap.isBroken, Gap.add, isBreak_space, Nat.add_assoc, Nat.add_comm 1] using read
    · have dark : isWhite c = false :=
        isWhite_eq_false (plain.printable c List.mem_cons_self) solid space
      have comment : ¬(Gap.blanks blanks ≠ Gap.none ∧ c = '#') := by
        rintro ⟨some, rfl⟩
        exact sign (fun none => some (by rw [none]; rfl)) rfl
      simp only [dark, Bool.false_eq_true, ↓reduceIte, Gap.isBroken, Bool.false_and, inside,
        plain.not_endsPlain, Bool.false_or, Bool.and_eq_true, decide_eq_true_eq, ne_eq, comment]
      cases others with
      | nil => simp [Gap.fold]
      | cons d tail =>
        have read := ih (by simp) plain.tail (column + 1) (before ++ blanks ++ [c]) (absurd rfl) next
        simpa [Gap.fold, Gap.none, Nat.add_assoc, Nat.add_comm 1] using read

/-- A colon with white space behind it ends a plain scalar. -/
theorem plainFrom_colon (floor line : Nat) {column : Nat} (inside : 0 < column) (before : List Char)
    {rest : List Char} (white : ∀ c ∈ rest.head?, isWhite c = true) :
    plainFrom false floor before .none (locate line column (':' :: rest)) =
      some ⟨before, locate line column (':' :: rest), false⟩ := by
  have stops : endsPlain false (locate line column (':' :: rest)) = true := by
    cases rest with
    | nil => rfl
    | cons c rest =>
      rw [locate_cons (show isBreak ':' = false by decide)]
      simpa [endsPlain, locate, atWhite] using white c rfl
  have open' := atDocumentEnd_locate_of_pos inside line (':' :: rest)
  rw [locate_cons (show isBreak ':' = false by decide)] at stops open' ⊢
  rw [plainFrom]
  simp [show isWhite ':' = false by decide, open', stops, Gap.isBroken, Gap.none]

/-- Spaces at the start of a further line do not count. -/
theorem plainFrom_spaces (floor count line column : Nat) (before : List Char) (first : Option Char)
    (further rest : List Char) :
    plainFrom false floor before (.breaks first further) (locate line column (spaces count ++ rest)) =
      plainFrom false floor before (.breaks first further) (locate line (column + count) rest) := by
  induction count generalizing column with
  | zero => rfl
  | succ count ih =>
    rw [locate_spaces, plainFrom]
    simp [isWhite, isBlank, Gap.isBroken, Gap.add, isBreak_space, ih, Nat.add_assoc, Nat.add_comm 1]

/-- A line less deep than the floor ends a plain scalar. -/
theorem plainFrom_newline {floor depth : Nat} (less : depth < floor) (line column : Nat)
    (before : List Char) {rest : List Char} (starts : StartsLine depth rest) :
    plainFrom false floor before .none (locate line column (newline depth ++ rest)) =
      some ⟨before, locate (line + 1) depth rest, true⟩ := by
  rw [locate_newline, plainFrom]
  simp only [isWhite, isBreak_newline, Bool.or_true, ↓reduceIte, Gap.none, Gap.isBroken, Bool.false_and,
    Bool.false_eq_true, Gap.add, plainFrom_spaces, Nat.zero_add]
  cases rest with
  | nil => rfl
  | cons c others =>
    have solid := (starts.solid c rfl).1
    rw [locate, plainFrom]
    simp [solid, less, Gap.isBroken]

end ClassModel.Document.Yaml
