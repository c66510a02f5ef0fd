import ClassModel.Proofs.DocumentTrees
import Mathlib.Tactic.SplitIfs

/-! # JSON text is read as the value it was written for

Every part of a text is read for whatever follows it: a string up to its closing quotation mark, and a
value up to a comma, a further line or the end. The reader's fuel is twice the length of what is left,
and a little more where it enters a list or a table.
-/

namespace ClassModel.Document.Json

open Text

/-! ## Strings -/

/-- The part of a string that a character is read as. -/
def pieceOf (c : Char) : Piece :=
  if c.toNat < 32 ∧ c ∉ ['\n', '\r', '\t', '\x08', '\x0c'] then .unit c.toNat else .char c

/-- A letter behind a backslash is read as the character that it stands for. -/
theorem pieces?_letter {letter c : Char} (stands : unescape? letter = some c) (rest : List Char) :
    pieces? ('\\' :: letter :: rest) =
      (pieces? rest).map fun (others, rest) => (.char c :: others, rest) := by
  rw [pieces?.eq_def]
  split
  · contradiction
  · rename_i same
    simp at same
  · rename_i same
    obtain ⟨rfl, -⟩ : letter = 'u' ∧ _ := by simpa using same
    simp [unescape?] at stands
  · rename_i same
    obtain ⟨rfl, rfl⟩ : letter = _ ∧ rest = _ := by simpa using same
    rw [stands, Option.map_eq_bind]
    rfl
  · rename_i other same
    obtain ⟨rfl, rfl⟩ := List.cons.inj same
    exact (other letter rest rfl rfl).elim

theorem pieces?_escape (c : Char) (rest : List Char) :
    pieces? (escape c ++ rest) = (pieces? rest).map fun (others, rest) => (pieceOf c :: others, rest) := by
  unfold escape
  split_ifs with quotation backslash newline returns tab back feed control
  · subst c; exact pieces?_letter rfl rest
  · subst c; exact pieces?_letter rfl rest
  · subst c; exact pieces?_letter rfl rest
  · subst c; exact pieces?_letter rfl rest
  · subst c; exact pieces?_letter rfl rest
  · subst c; exact pieces?_letter rfl rest
  · subst c; exact pieces?_letter rfl rest
  · have high := digitValue?_lowerHexDigit (show c.toNat / 16 < 16 by omega)
    have low := digitValue?_lowerHexDigit (show c.toNat % 16 < 16 by omega)
    have zero : digitValue? '0' = some 0 := rfl
    have code : natural? 16 ['0', '0', hexDigit (c.toNat / 16), hexDigit (c.toNat % 16)] =
        some c.toNat := by
      simp [natural?, digitsFrom?, zero, high, low, Nat.mod_lt, show c.toNat / 16 < 16 by omega]
      omega
    have unit : pieceOf c = .unit c.toNat := if_pos ⟨control, by simp [*]⟩
    rw [unit, Option.map_eq_bind]
    simp only [List.cons_append, List.nil_append, pieces?, code]
    rfl
  · have char : pieceOf c = .char c := if_neg (by simp [control])
    rw [char, Option.map_eq_bind, List.singleton_append, pieces?.eq_def]
    split
    · contradiction
    · rename_i same
      exact absurd (List.cons.inj same).1 quotation
    · rename_i same
      exact absurd (List.cons.inj same).1 backslash
    · rename_i same
      exact absurd (List.cons.inj same).1 backslash
    · rename_i same
      obtain ⟨rfl, rfl⟩ := List.cons.inj same
      rw [if_neg (by simp [backslash, control])]
      rfl

theorem joinPieces?_pieceOf (c : Char) (rest : List Piece) :
    joinPieces? (pieceOf c :: rest) = (joinPieces? rest).map (c :: ·) := by
  unfold pieceOf
  split
  · rename_i control
    have low : isHighSurrogate c.toNat = false ∧ isLowSurrogate c.toNat = false := by
      simp [isHighSurrogate, isLowSurrogate]
      omega
    cases rest with
    | nil => simp [joinPieces?, low, Char.ofNat_toNat]
    | cons next rest => cases next <;> simp [joinPieces?, low, Char.ofNat_toNat]
  · rfl

theorem pieces?_quoted (chars rest : List Char) :
    pieces? (chars.flatMap escape ++ '"' :: rest) = some (chars.map pieceOf, rest) := by
  induction chars with
  | nil => simp [pieces?]
  | cons c others ih =>
    rw [List.flatMap_cons, List.append_assoc, pieces?_escape, ih]
    rfl

theorem stringTree_pieces (text : String) : stringTree (text.toList.map pieceOf) = .text text := by
  have joined : ∀ chars : List Char, joinPieces? (chars.map pieceOf) = some chars := by
    intro chars
    induction chars with
    | nil => rfl
    | cons c rest ih => rw [List.map_cons, joinPieces?_pieceOf, ih, Option.map_some]
  rw [stringTree, joined]
  simp

/-! ## Blanks -/

/-- What follows a value: a comma, a further line or the end. -/
def Follows (rest : List Char) : Prop := ∀ c ∈ rest.head?, c = ',' ∨ c = '\n'

theorem skipBlanks_cons {c : Char} (solid : isBlank c = false) (rest : List Char) :
    skipBlanks (c :: rest) = c :: rest := by
  simp [skipBlanks, solid]

@[simp] theorem skipBlanks_newline (depth : Nat) (chars : List Char) :
    skipBlanks (newline depth ++ chars) = skipBlanks chars := by
  have spaces : ∀ count, skipBlanks (List.replicate count ' ' ++ chars) = skipBlanks chars := by
    intro count
    induction count with
    | zero => rfl
    | succ count ih => simpa [List.replicate_succ, skipBlanks, isBlank] using ih
  simpa [newline, skipBlanks, isBlank] using spaces (2 * depth)

/-! ## Numbers -/

theorem whole?_toDigits (n : Nat) {rest : List Char} (follows : Follows rest) :
    whole? (Nat.toDigits 10 n ++ rest) = some (Nat.toDigits 10 n, rest) := by
  have span : spanDigits (Nat.toDigits 10 n ++ rest) = (Nat.toDigits 10 n, rest) := by
    refine spanDigits_append (fun c written => digit_of_mem_toDigits written) fun c next digit => ?_
    rcases follows c next with rfl | rfl <;> exact absurd digit (by decide)
  rw [whole?, span]
  split
  · rename_i none
    exact absurd (Prod.mk.inj none).1 Nat.toDigits_ne_nil
  · rename_i digits _ same
    obtain ⟨written, rfl⟩ := Prod.mk.inj same
    obtain rfl := toDigits_eq_zero_of_head written
    rw [written]
    rfl
  · rename_i same
    obtain ⟨rfl, rfl⟩ := Prod.mk.inj same
    rfl

theorem number?_toDigits {n : Nat} (small : n < UInt64.size) {rest : List Char} (follows : Follows rest) :
    number? (Nat.toDigits 10 n ++ rest) = some (.natural n, rest) := by
  have whole := whole?_toDigits n follows
  have fraction : fraction? rest = some (none, rest) := by
    unfold fraction?
    split
    · rcases follows '.' rfl with same | same <;> exact absurd same (by decide)
    · rfl
  have exponent : exponent? rest = some (none, rest) := by
    cases rest with
    | nil => rfl
    | cons c rest => rcases follows c rfl with rfl | rfl <;> rfl
  have unsigned : ∀ others, Nat.toDigits 10 n ++ rest ≠ '-' :: others := by
    intro others written
    cases digits : Nat.toDigits 10 n with
    | nil => exact Nat.toDigits_ne_nil digits
    | cons c tail =>
      rw [digits] at written
      obtain ⟨rfl, -⟩ := List.cons.inj written
      exact absurd (digit_of_mem_toDigits (digits.symm ▸ List.mem_cons_self)) (by decide)
  rw [number?]
  · simp [whole, fraction, exponent, numberTree, digitsValue_toDigits, small]
  · exact unsigned

/-! ## Values -/

/-- A text that starts with a digit is read as a number. -/
theorem value?_of_digit {fuel : Nat} {c : Char} (digit : '0' ≤ c ∧ c ≤ '9') (rest : List Char) :
    value? (fuel + 1) (c :: rest) = number? (c :: rest) := by
  have other : ∀ d : Char, ¬('0' ≤ d ∧ d ≤ '9') → c ≠ d := fun d none same => none (same ▸ digit)
  have solid : skipBlanks (c :: rest) = c :: rest := by
    simp [skipBlanks, isBlank, other ' ' (by decide), other '\n' (by decide), other '\r' (by decide),
      other '\t' (by decide)]
  rw [value?, solid]
  split
  all_goals first
    | rename_i same
      exact absurd (List.cons.inj same).1 (other _ (by decide))
    | rfl

/-- Blanks before a value do not count. -/
theorem value?_of_skipBlanks {chars others : List Char} (same : skipBlanks chars = skipBlanks others)
    (fuel : Nat) : value? fuel chars = value? fuel others := by
  cases fuel with
  | zero => rfl
  | succ fuel => rw [value?, value?, same]

theorem items?_newline (fuel depth : Nat) (chars : List Char) :
    items? fuel (newline depth ++ chars) = items? fuel chars := by
  cases fuel with
  | zero => rfl
  | succ fuel => rw [items?, items?, value?_of_skipBlanks (skipBlanks_newline depth chars)]

theorem entries?_newline (fuel depth : Nat) (chars : List Char) :
    entries? fuel (newline depth ++ chars) = entries? fuel chars := by
  cases fuel with
  | zero => rfl
  | succ fuel => rw [entries?, entries?, skipBlanks_newline]

/-- A value is read for whatever follows it. -/
def Reads (value : Value) : Prop :=
  ∀ (fuel depth : Nat) (rest : List Char), Follows rest →
    2 * (render depth value ++ rest).length + 1 ≤ fuel →
      value? fuel (render depth value ++ rest) = some (value.treeIn .json, rest)

theorem follows_newline (depth : Nat) (rest : List Char) : Follows (newline depth ++ rest) := by
  rintro _ ⟨⟩
  exact .inr rfl

/-- The items of a list are read one by one up to the closing bracket. -/
theorem items?_renderItems {depth outer : Nat} {item : Value} {items : List Value} (first : Reads item)
    (others : ∀ item ∈ items, Reads item) {fuel : Nat} {rest : List Char}
    (enough : 2 * (render depth item ++ (renderItems depth items ++
      (newline outer ++ ']' :: rest))).length + 2 ≤ fuel) :
    items? fuel (render depth item ++ (renderItems depth items ++ (newline outer ++ ']' :: rest))) =
      some (Value.itemTrees .json (item :: items), rest) := by
  obtain ⟨fuel, rfl⟩ := Nat.exists_eq_add_one_of_ne_zero (show fuel ≠ 0 by omega)
  induction items generalizing item fuel with
  | nil =>
    have read := first fuel depth (newline outer ++ ']' :: rest) (follows_newline _ _)
      (by simpa [renderItems] using enough)
    simp [items?, renderItems, read, skipBlanks_cons, isBlank, Value.itemTrees]
  | cons next items ih =>
    have read := first fuel depth (renderItems depth (next :: items) ++ (newline outer ++ ']' :: rest))
      (by rintro _ ⟨⟩; exact .inl rfl) (by omega)
    obtain ⟨fuel, rfl⟩ := Nat.exists_eq_add_one_of_ne_zero (show fuel ≠ 0 by omega)
    have further := ih (others next List.mem_cons_self)
      (fun other member => others other (List.mem_cons_of_mem _ member)) fuel (by
        simp only [renderItems, newline, List.length_append, List.length_cons] at enough ⊢
        omega)
    rw [items?, read, renderItems]
    simp only [Option.bind_eq_bind, Option.bind_some, List.cons_append, List.append_assoc]
    simp [skipBlanks_cons, isBlank, items?_newline, further, Value.itemTrees]

/-- An entry is read with its key, and what stands behind it tells whether there is another. -/
theorem entries?_entry {fuel : Nat} {name : String} {chars rest : List Char} {tree : Tree}
    (read : value? fuel chars = some (tree, rest)) :
    entries? (fuel + 1) (quote name ++ (": ".toList ++ chars)) =
      match skipBlanks rest with
      | ',' :: rest => (entries? fuel rest).map fun (entries, rest) => ((.text name, tree) :: entries, rest)
      | '\x7d' :: rest => some ([(.text name, tree)], rest)
      | _ => none := by
  have key := pieces?_quoted name.toList (": ".toList ++ chars)
  have behind : value? fuel (' ' :: chars) = some (tree, rest) := by
    rw [← read]
    exact value?_of_skipBlanks (by simp [skipBlanks, isBlank]) fuel
  simp only [quote, List.cons_append, List.append_assoc, List.nil_append, entries?,
    skipBlanks_cons (show isBlank '"' = false by decide), key, Option.bind_eq_bind, Option.bind_some]
  simp only [String.reduceToList, List.cons_append, List.nil_append,
    skipBlanks_cons (show isBlank ':' = false by decide), behind, Option.bind_some, stringTree_pieces,
    Option.map_eq_bind]
  rfl

/-- The entries of a table are read one by one up to the closing brace. -/
theorem entries?_renderFields {depth outer : Nat} {name : String} {value : Value}
    {fields : List (String × Value)} (first : Reads value) (others : ∀ field ∈ fields, Reads field.2)
    {fuel : Nat} {rest : List Char}
    (enough : 2 * (quote name ++ (": ".toList ++ (render depth value ++ (renderFields depth fields ++
      (newline outer ++ '\x7d' :: rest))))).length + 2 ≤ fuel) :
    entries? fuel (quote name ++ (": ".toList ++ (render depth value ++ (renderFields depth fields ++
      (newline outer ++ '\x7d' :: rest))))) =
      some (Value.fieldTrees .json ((name, value) :: fields), rest) := by
  obtain ⟨fuel, rfl⟩ := Nat.exists_eq_add_one_of_ne_zero (show fuel ≠ 0 by omega)
  induction fields generalizing name value fuel with
  | nil =>
    have read := first fuel depth (newline outer ++ '\x7d' :: rest) (follows_newline _ _) (by
      simp only [quote, renderFields, List.length_append, List.length_cons] at enough ⊢
      omega)
    rw [renderFields, List.nil_append, entries?_entry read]
    simp [skipBlanks_cons, isBlank, Value.fieldTrees, Format.textTree]
  | cons next fields ih =>
    obtain ⟨key, next⟩ := next
    have read := first fuel depth
      (renderFields depth ((key, next) :: fields) ++ (newline outer ++ '\x7d' :: rest))
      (by rintro _ ⟨⟩; exact .inl rfl) (by
        simp only [quote, List.length_append, List.length_cons] at enough ⊢
        omega)
    obtain ⟨fuel, rfl⟩ := Nat.exists_eq_add_one_of_ne_zero (show fuel ≠ 0 by
      simp only [quote, List.length_append, List.length_cons] at enough
      omega)
    have further : entries? (fuel + 1) (quote key ++ (": ".toList ++ (render depth next ++
        (renderFields depth fields ++ (newline outer ++ '\x7d' :: rest))))) =
        some (Value.fieldTrees .json ((key, next) :: fields), rest) :=
      ih (others (key, next) List.mem_cons_self)
        (fun other member => others other (List.mem_cons_of_mem _ member)) fuel (by
          simp only [renderFields, quote, newline, List.length_append, List.length_cons] at enough ⊢
          omega)
    rw [entries?_entry read, renderFields]
    simp only [List.cons_append, List.append_assoc, entries?_newline, further, Option.map_some,
      skipBlanks_cons (show isBlank ',' = false by decide)]
    rfl

/-- The first character of a value is neither blank nor a closing bracket. -/
theorem render_starts (depth : Nat) (value : Value) :
    ∃ c rest, render depth value = c :: rest ∧ isBlank c = false ∧ c ≠ ']' := by
  cases value with
  | null => exact ⟨'n', _, rfl, by decide, by decide⟩
  | bool value =>
    cases value with
    | false => exact ⟨'f', _, rfl, by decide, by decide⟩
    | true => exact ⟨'t', _, rfl, by decide, by decide⟩
  | natural value =>
    cases digits : Nat.toDigits 10 value with
    | nil => exact absurd digits Nat.toDigits_ne_nil
    | cons c rest =>
      have digit := digit_of_mem_toDigits (digits.symm ▸ List.mem_cons_self : c ∈ Nat.toDigits 10 value)
      have other : ∀ d : Char, ¬('0' ≤ d ∧ d ≤ '9') → c ≠ d := fun d none same => none (same ▸ digit)
      refine ⟨c, rest, digits, ?_, other ']' (by decide)⟩
      simp [isBlank, other ' ' (by decide), other '\n' (by decide), other '\r' (by decide),
        other '\t' (by decide)]
  | text value => exact ⟨'"', _, rfl, by decide, by decide⟩
  | list items => cases items <;> exact ⟨'[', _, rfl, by decide, by decide⟩
  | record fields => cases fields <;> exact ⟨'\x7b', _, rfl, by decide, by decide⟩
  | choice tag content => exact ⟨'\x7b', _, rfl, by decide, by decide⟩

/-! ## One case per kind of value -/

namespace Reads

theorem null : Reads .null := by
  intro fuel depth rest _ enough
  obtain ⟨fuel, rfl⟩ := Nat.exists_eq_add_one_of_ne_zero (show fuel ≠ 0 by omega)
  simp [render, value?, skipBlanks_cons, isBlank, Format.nullTree]

theorem bool (value : Bool) : Reads (.bool value) := by
  intro fuel depth rest _ enough
  obtain ⟨fuel, rfl⟩ := Nat.exists_eq_add_one_of_ne_zero (show fuel ≠ 0 by omega)
  cases value <;> simp [render, value?, skipBlanks_cons, isBlank, Format.boolTree]

theorem natural {value : Nat} (small : value < UInt64.size) : Reads (.natural value) := by
  intro fuel depth rest follows enough
  obtain ⟨fuel, rfl⟩ := Nat.exists_eq_add_one_of_ne_zero (show fuel ≠ 0 by omega)
  have read := number?_toDigits small follows
  rw [render]
  cases digits : Nat.toDigits 10 value with
  | nil => exact absurd digits Nat.toDigits_ne_nil
  | cons c others =>
    have digit := digit_of_mem_toDigits (digits.symm ▸ List.mem_cons_self : c ∈ Nat.toDigits 10 value)
    rw [digits] at read
    rw [List.cons_append, value?_of_digit digit, ← List.cons_append, read]
    rfl

theorem text (value : String) : Reads (.text value) := by
  intro fuel depth rest _ enough
  obtain ⟨fuel, rfl⟩ := Nat.exists_eq_add_one_of_ne_zero (show fuel ≠ 0 by omega)
  have read := pieces?_quoted value.toList rest
  simp [render, quote, value?, skipBlanks_cons, isBlank, read, stringTree_pieces, Format.textTree]

theorem list {items : List Value} (each : ∀ item ∈ items, Reads item) : Reads (.list items) := by
  intro fuel depth rest _ enough
  obtain ⟨fuel, rfl⟩ := Nat.exists_eq_add_one_of_ne_zero (show fuel ≠ 0 by omega)
  cases items with
  | nil => simp [render, value?, skipBlanks_cons, isBlank, Value.treeIn, Value.itemTrees]
  | cons item items =>
    obtain ⟨c, others, starts, solid, opens⟩ := render_starts (depth + 1) item
    have read : items? fuel (render (depth + 1) item ++ (renderItems (depth + 1) items ++
        (newline depth ++ ']' :: rest))) = some (Value.itemTrees .json (item :: items), rest) :=
      items?_renderItems (each item List.mem_cons_self)
        (fun other member => each other (List.mem_cons_of_mem _ member)) (by
          simp only [render, newline, List.length_append, List.length_cons] at enough ⊢
          omega)
    rw [starts] at read
    simp only [render, starts, List.cons_append, List.append_assoc, List.nil_append, value?,
      skipBlanks_cons (show isBlank '[' = false by decide), skipBlanks_newline, skipBlanks_cons solid] at read ⊢
    simp [opens, read, Value.treeIn]

theorem record {fields : List (String × Value)} (each : ∀ field ∈ fields, Reads field.2) :
    Reads (.record fields) := by
  intro fuel depth rest _ enough
  obtain ⟨fuel, rfl⟩ := Nat.exists_eq_add_one_of_ne_zero (show fuel ≠ 0 by omega)
  cases fields with
  | nil => simp [render, value?, skipBlanks_cons, isBlank, Value.treeIn, Value.fieldTrees]
  | cons field fields =>
    obtain ⟨name, value⟩ := field
    have read : entries? fuel (quote name ++ (": ".toList ++ (render (depth + 1) value ++
        (renderFields (depth + 1) fields ++ (newline depth ++ '\x7d' :: rest))))) =
        some (Value.fieldTrees .json ((name, value) :: fields), rest) :=
      entries?_renderFields (each (name, value) List.mem_cons_self)
        (fun other member => each other (List.mem_cons_of_mem _ member)) (by
          simp only [render, newline, List.length_append, List.length_cons] at enough ⊢
          omega)
    simp only [render, quote, List.cons_append, List.append_assoc, List.nil_append, value?,
      skipBlanks_cons (show isBlank '\x7b' = false by decide), skipBlanks_newline,
      skipBlanks_cons (show isBlank '"' = false by decide)] at read ⊢
    exact congrArg (Option.map fun (entries, rest) => (Tree.map entries, rest)) read

/-- An alternative is written and read like a table with one entry. -/
theorem choice (tag : String) {content : Value} (reads : Reads content) : Reads (.choice tag content) := by
  have same : ∀ depth, render depth (.choice tag content) = render depth (.record [(tag, content)]) := by
    intro depth
    simp [render, renderFields]
  intro fuel depth rest follows enough
  rw [same] at enough ⊢
  exact record (by simpa using reads) fuel depth rest follows enough

end Reads

/-- Every value that fits is read. -/
theorem reads_of_fits {depth : Nat} {value : Value} (fits : value.Fits depth) : Reads value := by
  induction fits with
  | null => exact .null
  | bool => exact .bool _
  | natural small => exact .natural small
  | text => exact .text _
  | list _ each => exact .list each
  | record _ each => exact .record each
  | choice _ _ content => exact .choice _ content

/-- A value that is not too deep is read from its text. -/
theorem read?_print {value : Value} (fits : value.Fits depthLimit) :
    read? (print value) = some (value.treeIn .json) := by
  have read := reads_of_fits fits (2 * (render 0 value ++ []).length + 2) 0 []
    (fun _ none => nomatch none) (by omega)
  rw [List.append_nil] at read
  simp [read?, print, read, skipBlanks, Value.within_treeIn fits (Nat.le_refl _)]

end ClassModel.Document.Json
