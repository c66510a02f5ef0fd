import ClassModel.Project.Manifest

/-! # The format that a path tells

The letters of the file extensions are small letters that no character above ASCII has for its lower-case
form. So the full lower-case form of a text is such an extension exactly if the text is the extension in
letters of any case, and a path tells a format exactly if its extension is one of that format.
-/

namespace ClassModel

namespace Text

/-- A small letter that only itself and its ASCII capital have for their lower-case form. The letters i and k
start the lower-case forms of a dotted capital I and of the sign for kelvin. -/
def IsPlainSmall (c : Char) : Prop := 97 ≤ c.toNat ∧ c.toNat ≤ 122 ∧ c ≠ 'i' ∧ c ≠ 'k'

instance (c : Char) : Decidable (IsPlainSmall c) := inferInstanceAs (Decidable (_ ∧ _ ∧ _ ∧ _))

theorem not_isPlainSmall_of_le {c : Char} (above : 128 ≤ c.toNat) : ¬IsPlainSmall c :=
  fun plain => absurd plain.2.1 (by omega)

theorem toLower_of_le {c : Char} (above : 128 ≤ c.toNat) : c.toLower = c := by
  unfold Char.toLower
  rw [dif_neg]
  rintro ⟨_, below⟩
  have bound : c.toNat ≤ 90 := below
  omega

/-- The small letters of the capitals above ASCII are above ASCII too, but for the letter k. -/
theorem CapitalRange.lower?_of_mem {range : CapitalRange} (member : range ∈ capitalRanges) {code small : Nat}
    (lowered : range.lower? code = some small) : 128 ≤ small ∨ small = 'k'.toNat := by
  have bounds : ∀ range ∈ capitalRanges, 128 ≤ (range.first : Int) + range.offset ∨
      (range.last = range.first ∧ (range.first : Int) + range.offset = 107) := by decide +kernel
  unfold CapitalRange.lower? at lowered
  split at lowered
  · rename_i within
    obtain ⟨above, below, _⟩ := within
    cases lowered
    have letter : 'k'.toNat = 107 := rfl
    rw [Int.ofNat_eq_natCast]
    rcases bounds range member with high | ⟨single, kelvin⟩ <;> omega
  · cases lowered

/-- No plain small letter has a code above ASCII, nor the code of the letter k. -/
theorem not_isPlainSmall_ofNat {code : Nat} (apart : 128 ≤ code ∨ code = 'k'.toNat) :
    ¬IsPlainSmall (Char.ofNat code) := by
  rcases apart with above | rfl
  · by_cases valid : code.isValidChar
    · have known : Char.ofNat code = Char.ofNatAux code valid := dif_pos valid
      rw [known]
      exact not_isPlainSmall_of_le above
    · have unknown : Char.ofNat code = '\x00' := dif_neg valid
      rw [unknown]
      decide
  · decide

/-- What a character above ASCII becomes in lower case starts with none of the plain small letters. -/
theorem exists_lowered {c : Char} (above : 128 ≤ c.toNat) (before after : List Char) :
    ∃ first others, (if c = 'Σ' then [lowerSigma before after] else lowerChar c) = first :: others ∧
      ¬IsPlainSmall first := by
  split
  · refine ⟨_, _, rfl, ?_⟩
    unfold lowerSigma
    split <;> decide
  · unfold lowerChar
    rw [if_neg (Nat.not_lt.mpr above)]
    split
    · exact ⟨_, _, rfl, by decide⟩
    · split
      · rename_i code found
        obtain ⟨range, member, lowered⟩ := List.exists_of_findSome?_eq_some found
        exact ⟨_, _, rfl, not_isPlainSmall_ofNat (CapitalRange.lower?_of_mem member lowered)⟩
      · exact ⟨_, _, rfl, not_isPlainSmall_of_le above⟩

/-- Plain small letters are the lower-case form of themselves and their ASCII capitals only. -/
theorem lowerAfter_eq_iff {target : List Char} (plain : ∀ c ∈ target, IsPlainSmall c)
    {before chars : List Char} :
    lowerAfter before chars = target ↔ chars.map Char.toLower = target := by
  induction chars generalizing before target with
  | nil => rfl
  | cons c rest ih =>
    rw [lowerAfter, List.map_cons]
    by_cases ascii : c.toNat < 128
    · have notSigma : c ≠ 'Σ' := by
        rintro rfl
        exact absurd ascii (by decide)
      rw [if_neg notSigma, lowerChar, if_pos ascii, List.singleton_append]
      cases target with
      | nil => simp
      | cons first others =>
        rw [List.cons.injEq, List.cons.injEq, ih (List.forall_mem_cons.mp plain).2]
    · -- neither side starts with a plain small letter
      have above := Nat.le_of_not_lt ascii
      obtain ⟨first, others, lowered, notPlain⟩ := exists_lowered above before rest
      rw [lowered, toLower_of_le above]
      constructor
      · rintro rfl
        exact absurd (plain first List.mem_cons_self) notPlain
      · rintro rfl
        exact absurd (plain c List.mem_cons_self) (not_isPlainSmall_of_le above)

/-- The full lower-case form is a text of plain small letters where the one that only knows ASCII is. -/
theorem lowercase_eq_iff {text target : String} (plain : ∀ c ∈ target.toList, IsPlainSmall c) :
    lowercase text = target ↔ lowercaseAscii text = target := by
  rw [← String.toList_inj, ← String.toList_inj, lowercase, lowercaseAscii, String.toList_ofList,
    String.toList_map, lowerAfter_eq_iff plain]

end Text

namespace Document.Format

/-- A file extension of a format, in letters of any case. -/
def IsExtension (format : Format) (extension : String) : Prop :=
  Text.lowercaseAscii extension ∈ format.extensions

instance (format : Format) (extension : String) : Decidable (format.IsExtension extension) :=
  inferInstanceAs (Decidable (_ ∈ _))

theorem isPlainSmall_of_mem_extensions (format : Format) :
    ∀ extension ∈ format.extensions, ∀ c ∈ extension.toList, Text.IsPlainSmall c := by
  have every : (format.extensions.all fun extension =>
      extension.toList.all fun c => decide (Text.IsPlainSmall c)) = true := by
    cases format <;> decide +kernel
  simpa only [List.all_eq_true, decide_eq_true_eq] using every

theorem lowercase_mem_extensions_iff {format : Format} {extension : String} :
    Text.lowercase extension ∈ format.extensions ↔ format.IsExtension extension := by
  have same : ∀ known ∈ format.extensions,
      (Text.lowercase extension = known ↔ Text.lowercaseAscii extension = known) :=
    fun known listed => Text.lowercase_eq_iff (format.isPlainSmall_of_mem_extensions known listed)
  constructor
  · intro listed
    rw [IsExtension, (same _ listed).mp rfl]
    exact listed
  · intro listed
    rw [(same _ listed).mpr rfl]
    exact listed

/-- No two formats share an extension. -/
theorem eq_of_mem_extensions {format other : Format} {extension : String}
    (one : extension ∈ format.extensions) (another : extension ∈ other.extensions) : format = other := by
  have apart : ∀ known ∈ Format.json.extensions, known ∉ Format.yaml.extensions := by decide
  cases format <;> cases other
  · rfl
  · exact absurd another (apart extension one)
  · exact absurd one (apart extension another)
  · rfl

/-- A format is told by its extensions in letters of any case. -/
theorem ofExtension?_eq_some_iff {format : Format} {extension : String} :
    ofExtension? extension = some format ↔ format.IsExtension extension := by
  have found : ∀ other, ofExtension? extension = some other → Text.lowercase extension ∈ other.extensions := by
    intro other told
    have listed := List.find?_some told
    exact List.contains_iff_mem.mp listed
  rw [← lowercase_mem_extensions_iff]
  refine ⟨found format, fun listed => ?_⟩
  cases told : ofExtension? extension with
  | some other => rw [eq_of_mem_extensions listed (found other told)]
  | none =>
    have present : format ∈ all := by cases format <;> decide
    have unlisted := List.find?_eq_none.mp told format present
    exact absurd (List.contains_iff_mem.mpr listed) unlisted

end Document.Format

namespace Project.Path

open Document

/-- The extension of a path is one of a format. -/
def Tells (path : Path) (format : Format) : Prop :=
  ∃ extension, path.extension? = some extension ∧ format.IsExtension extension

theorem format?_eq_some_iff {path : Path} {format : Format} : path.format? = some format ↔ path.Tells format := by
  simp only [format?, Option.bind_eq_some_iff, Format.ofExtension?_eq_some_iff, Tells]

end Project.Path

end ClassModel
