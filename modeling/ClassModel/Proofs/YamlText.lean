import ClassModel.Proofs.YamlBlocks

/-! # YAML text is read as the value it was written for

The printer writes only characters that it prints as they are, so the reader finds all of them allowed
and has no ends of lines to make alike. A document whose value is a table with entries is then read
as that table.
-/

namespace ClassModel.Document.Yaml

/-! ## Characters -/

/-- Every character of a text is written as it is. -/
def IsPrintable (chars : List Char) : Prop := ∀ c ∈ chars, isPrintable c = true

instance (chars : List Char) : Decidable (IsPrintable chars) := decidable_of_iff _ List.all_eq_true

namespace IsPrintable

@[simp] theorem nil : IsPrintable [] := by simp [IsPrintable]

@[simp] theorem cons_iff {c : Char} {rest : List Char} :
    IsPrintable (c :: rest) ↔ isPrintable c = true ∧ IsPrintable rest := List.forall_mem_cons

@[simp] theorem append_iff {front back : List Char} :
    IsPrintable (front ++ back) ↔ IsPrintable front ∧ IsPrintable back := List.forall_mem_append

theorem flatMap {write : Char → List Char} {chars : List Char} (each : ∀ c ∈ chars, IsPrintable (write c)) :
    IsPrintable (chars.flatMap write) := by
  intro d written
  obtain ⟨c, member, written⟩ := List.mem_flatMap.mp written
  exact each c member d written

@[simp] theorem spaces (count : Nat) : IsPrintable (Yaml.spaces count) := by
  intro c written
  rw [List.eq_of_mem_replicate written]
  decide

@[simp] theorem newline (depth : Nat) : IsPrintable (Yaml.newline depth) :=
  List.forall_mem_cons.mpr ⟨by decide, spaces depth⟩

@[simp] theorem newlineAfter (chars : List Char) (depth : Nat) : IsPrintable (Yaml.newlineAfter chars depth) := by
  unfold Yaml.newlineAfter
  split <;> simp

theorem joinLines {blocks : List (List Char)} (each : ∀ block ∈ blocks, IsPrintable block) (depth : Nat) :
    IsPrintable (Yaml.joinLines depth blocks) := by
  induction blocks with
  | nil => simp [Yaml.joinLines]
  | cons block rest ih =>
    obtain ⟨first, others⟩ := List.forall_mem_cons.mp each
    cases rest with
    | nil => simpa [Yaml.joinLines] using first
    | cons next rest =>
      rw [Yaml.joinLines]
      · simpa [first] using ih others
      · simp

theorem indentLines {chars : List Char} (printable : IsPrintable chars) (depth : Nat) (startsLine : Bool) :
    IsPrintable (Yaml.indentLines depth startsLine chars) := by
  induction chars generalizing startsLine with
  | nil => simp [Yaml.indentLines]
  | cons c rest ih =>
    obtain ⟨first, others⟩ := cons_iff.mp printable
    rw [Yaml.indentLines]
    split
    · simp [first, ih others]
    · split <;> simp [first, ih others]

theorem singleQuotedChar {c : Char} (printable : isPrintable c = true) : IsPrintable (Yaml.singleQuotedChar c) := by
  unfold Yaml.singleQuotedChar
  split <;> simp [printable, show isPrintable '\'' = true by decide]

/-- Every style writes printable characters only. -/
theorem scalar {text : String} {style : Style} (suits : Suits text.toList style) (depth : Nat) :
    IsPrintable (Yaml.scalar depth style text) := by
  have quote : isPrintable '\'' = true ∧ isPrintable '"' = true := by decide
  cases suits with
  | plain plain => exact plain.printable
  | singleQuoted quotable =>
    have lines := indentLines (flatMap fun c member => singleQuotedChar (quotable.printable c member)) depth false
    rw [Yaml.scalar, singleQuoted_eq, ← indentLines_quoted]
    split <;> simp [quote, lines]
  | doubleQuoted =>
    have inside : IsPrintable (text.toList.flatMap doubleQuotedChar) :=
      flatMap fun c _ d written => (clean_doubleQuotedChar d written).1
    simp [Yaml.scalar, doubleQuoted, quote, inside]
  | literal broken printable =>
    have lines := indentLines printable depth true
    obtain ⟨chomping, marked⟩ := exists_chomping text.toList
    have mark : IsPrintable chomping.mark := by
      intro c written
      cases chomping <;> simp only [Chomping.mark, List.mem_singleton, List.not_mem_nil] at written <;>
        subst written <;> decide
    simp only [Yaml.scalar, literal, literalHeader, ← marked, List.cons_append, cons_iff, append_iff]
    refine ⟨by decide, ⟨?_, mark⟩, by decide, lines⟩
    split <;> simp [show isPrintable '2' = true by decide]

theorem textScalar (depth : Nat) (text : String) : IsPrintable (Yaml.textScalar depth text) :=
  scalar (suits_styleOf text) depth

theorem keyText (depth : Nat) (key : String) : IsPrintable (Yaml.keyText depth key) := by
  have colon : isPrintable ':' = true := by decide
  unfold Yaml.keyText
  split
  · simpa [colon] using scalar (suits_styleOf key) (depth + 2)
  · have lines : IsPrintable (Yaml.joinLines depth [Yaml.textScalar (depth + 2) key, [':']]) :=
      joinLines (by simp [textScalar, colon]) depth
    simpa [show isPrintable '?' = true by decide, show isPrintable ' ' = true by decide] using lines

theorem opening (place : Place) (depth : Nat) : IsPrintable (place.opening depth) := by
  unfold Place.opening
  split <;> simp [show isPrintable ' ' = true by decide]

theorem itemLines {items : List Value} {depth : Nat} (each : ∀ item ∈ items, IsPrintable (content .besideMark depth item)) :
    ∀ block ∈ Yaml.itemLines depth items, IsPrintable block := by
  induction items with
  | nil => simp [Yaml.itemLines]
  | cons item rest ih =>
    obtain ⟨first, others⟩ := List.forall_mem_cons.mp each
    rw [Yaml.itemLines]
    exact List.forall_mem_cons.mpr ⟨cons_iff.mpr ⟨by decide, first⟩, ih others⟩

theorem entryLines {fields : List (String × Value)} {depth : Nat}
    (each : ∀ field ∈ fields, ∀ place, IsPrintable (content place depth field.2)) :
    ∀ block ∈ Yaml.entryLines depth fields, IsPrintable block := by
  induction fields with
  | nil => simp [Yaml.entryLines]
  | cons field rest ih =>
    obtain ⟨first, others⟩ := List.forall_mem_cons.mp each
    rw [Yaml.entryLines]
    exact List.forall_mem_cons.mpr ⟨append_iff.mpr ⟨keyText depth field.1, first _⟩, ih others⟩

theorem tag {tag : String} (word : Value.IsTag tag) : IsPrintable tag.toList := by
  intro c member
  obtain ⟨first, last⟩ := Bool.and_eq_true_iff.mp (word c member)
  have low : ' ' ≤ c := Char.le_trans (by decide) (of_decide_eq_true first)
  have high : c ≤ '~' := Char.le_trans (of_decide_eq_true last) (by decide)
  simp [isPrintable, low, high]

/-- Every value is written in printable characters. -/
theorem content {limit : Nat} {value : Value} (fits : value.Fits limit) (place : Place) (depth : Nat) :
    IsPrintable (Yaml.content place depth value) := by
  have space : isPrintable ' ' = true := by decide
  induction fits generalizing place depth with
  | null => exact show IsPrintable " null".toList by decide
  | @bool _ value =>
    cases value with
    | false => exact show IsPrintable " false".toList by decide
    | true => exact show IsPrintable " true".toList by decide
  | natural small =>
    rw [Yaml.content]
    exact cons_iff.mpr ⟨space, (isPlain_toDigits _).printable⟩
  | text =>
    rw [Yaml.content]
    exact cons_iff.mpr ⟨space, textScalar _ _⟩
  | @list _ items each ih =>
    cases items with
    | nil => simpa [Yaml.content] using show isPrintable ' ' = true ∧ _ ∧ _ by decide
    | cons item items =>
      rw [Yaml.content]
      exact append_iff.mpr ⟨opening _ _, joinLines (itemLines fun item member => ih item member _ _) _⟩
  | @record _ fields each ih =>
    cases fields with
    | nil => simpa [Yaml.content] using show isPrintable ' ' = true ∧ _ ∧ _ by decide
    | cons field fields =>
      rw [Yaml.content]
      exact append_iff.mpr ⟨opening _ _, joinLines (entryLines fun field member place => ih field member _ _) _⟩
  | choice word _ ih =>
    rw [Yaml.content]
    exact cons_iff.mpr ⟨space, cons_iff.mpr ⟨by decide, append_iff.mpr ⟨tag word, ih _ _⟩⟩⟩

end IsPrintable

theorem isAllowed_of_isPrintable {c : Char} (printable : isPrintable c = true) : isAllowed c = true := by
  simp only [isPrintable, isAllowed, Bool.or_eq_true, Bool.and_eq_true] at printable ⊢
  tauto

theorem normalizeBreaks_of_isPrintable {chars : List Char} (printable : IsPrintable chars) :
    normalizeBreaks chars = chars := by
  induction chars with
  | nil => rfl
  | cons c rest ih =>
    obtain ⟨first, others⟩ := IsPrintable.cons_iff.mp printable
    have other : ∀ d, isPrintable d = false → c ≠ d := by
      rintro d none rfl
      rw [first] at none
      cases none
    rw [normalizeBreaks, ih others]
    · exact fun _ same _ => other _ (by decide) same
    · exact other _ (by decide)
    · exact other _ (by decide)

/-! ## Documents -/

/-- Where nothing is left, the document is at its end. -/
theorem endsDocument_of_closes {node : NodeReading} (closes : node.Closes 0 []) (fuel : Nat) :
    endsDocument (fuel + 1) node.keyAllowed node.rest = true := by
  obtain ⟨line, skip⟩ := closes
  simp [endsDocument, skip, locate]

/-- A text of printable characters that starts with a node is read as that node. -/
theorem read?_eq {chars : List Char} (printable : IsPrintable chars) (written : chars ≠ [])
    (starts : StartsLine 0 chars) (directive : ∀ c ∈ chars.head?, c ≠ '%') :
    read? (String.ofList chars) =
      (blockNode? (4 * (locate 0 0 chars).length + 8) 0 none true (locate 0 0 chars)).bind fun node =>
        if endsDocument (4 * (locate 0 0 chars).length + 8) node.keyAllowed node.rest then
          some (node.tree.within depthLimit)
        else none := by
  have allowed : chars.all isAllowed = true :=
    List.all_eq_true.mpr fun c member => isAllowed_of_isPrintable (printable c member)
  have skip := starts.skipFiller false true 0 0
  have divider : atDivider '-' (locate 0 0 chars) = false := by
    have inside := starts.inside 0
    rw [atDocumentEnd, Bool.or_eq_false_iff] at inside
    exact inside.1
  obtain ⟨c, others, rfl⟩ := List.exists_cons_of_ne_nil written
  have mark : c ≠ '\ufeff' := by
    rintro rfl
    exact absurd (printable _ List.mem_cons_self) (by decide)
  unfold read?
  simp only [String.toList_ofList]
  split
  · rename_i rest same
    exact absurd (List.cons.inj same).1 mark
  · have solid := isBreak_eq_false (starts.solid c rfl).1
    rw [allowed]
    simp only [normalizeBreaks_of_isPrintable printable, skip]
    rw [locate_cons solid] at divider ⊢
    simp [divider, directive c rfl]

/-- A table with entries is read from its text, unless it is too deep. -/
theorem read?_print {field : String × Value} {fields : List (String × Value)}
    (fits : (Value.record (field :: fields)).Fits depthLimit) :
    read? (print (.record (field :: fields))) = some ((Value.record (field :: fields)).treeIn .yaml) := by
  have each : ∀ other ∈ field :: fields, other.2.Fits 127 := Value.Fits.record_iff.mp fits
  have lines : IsPrintable (joinLines 0 (entryLines 0 (field :: fields))) :=
    .joinLines (.entryLines fun other member place => .content (each other member) place 0) 0
  have text : print (.record (field :: fields)) =
      String.ofList (ended (joinLines 0 (entryLines 0 (field :: fields))) 0 []) := by
    simp [print, document, joinLines, ended]
  obtain ⟨inner, more, entry⟩ := exists_ended_entryLines 0 0 [] field.1 field.2 fields
  obtain ⟨node, read, tree, closes⟩ := exists_blockNode?_entries (Nat.le_refl 0) (Nat.le_refl 0) .nil (.inr rfl)
    (fun other member => reads_of_fits (each other member)) none 0
    (4 * (locate 0 0 (ended (joinLines 0 (entryLines 0 (field :: fields))) 0 [])).length + 8) (by
      rw [length_locate]
      omega)
  rw [text, read?_eq (by simpa [ended] using lines) (entry ▸ ended_ne_nil (entryText_ne_nil _ _ _) _ _)
    (entry ▸ startsLine_entry) (entry ▸ head?_entry_ne), read, Option.bind_some,
    if_pos (endsDocument_of_closes closes _), tree, Value.within_treeIn fits (Nat.le_refl _)]

end ClassModel.Document.Yaml
