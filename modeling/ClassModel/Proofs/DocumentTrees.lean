import ClassModel.Document.Format
import ClassModel.Proofs.Numerals
import ClassModel.Proofs.Tables

/-! # The trees of values

`Value.treeIn` is the tree that a reader finds where a value was written in a format. The two formats
tell the same values apart by different means: JSON by the types of its scalars, YAML by what an
unquoted scalar looks like, and an alternative by a table with one entry in the one and by a tag in the
other. What the decoders ask of a tree they therefore learn in either.
-/

namespace ClassModel.Document

/-! ## Values as trees -/

namespace Format

/-- The tree of a text, unquoted only where its style is plain. -/
def textTree : Format → String → Tree
  | .json, text => .text text
  | .yaml, text => if Yaml.styleOf text = .plain then .plain text else .quoted text

def nullTree : Format → Tree
  | .json => .null
  | .yaml => .plain "null"

def boolTree : Format → Bool → Tree
  | .json, value => .bool value
  | .yaml, true => .plain "true"
  | .yaml, false => .plain "false"

def naturalTree : Format → Nat → Tree
  | .json, value => .natural value
  | .yaml, value => .plain (String.ofList (Nat.toDigits 10 value))

def choiceTree : Format → String → Tree → Tree
  | .json, tag, content => .map [(.text tag, content)]
  | .yaml, tag, content => .tagged tag content

end Format

namespace Value

mutual

/-- The tree of a value that is written in a format. -/
def treeIn (format : Format) : Value → Tree
  | .null => format.nullTree
  | .bool value => format.boolTree value
  | .natural value => format.naturalTree value
  | .text value => format.textTree value
  | .list items => .list (itemTrees format items)
  | .record fields => .map (fieldTrees format fields)
  | .choice tag content => format.choiceTree tag (treeIn format content)

def itemTrees (format : Format) : List Value → List Tree
  | [] => []
  | item :: rest => treeIn format item :: itemTrees format rest

def fieldTrees (format : Format) : List (String × Value) → List (Tree × Tree)
  | [] => []
  | (name, value) :: rest => (format.textTree name, treeIn format value) :: fieldTrees format rest

end

theorem itemTrees_eq_map (format : Format) (items : List Value) :
    itemTrees format items = items.map (treeIn format) := by
  induction items with
  | nil => rfl
  | cons item rest ih => rw [itemTrees, ih, List.map_cons]

theorem fieldTrees_eq_map (format : Format) (fields : List (String × Value)) :
    fieldTrees format fields =
      fields.map fun field => (format.textTree field.1, field.2.treeIn format) := by
  induction fields with
  | nil => rfl
  | cons field rest ih => rw [fieldTrees, ih, List.map_cons]

/-! ## What can be written -/

/-- A tag that either format can write: lower case letters. -/
def IsTag (tag : String) : Prop := ∀ c ∈ tag.toList, c.isLower = true

instance (tag : String) : Decidable (IsTag tag) := decidable_of_iff _ List.all_eq_true

/-- The values of a depth that are read back as they are: their numbers need no more than 64 bits, and
their tags are plain words. -/
inductive Fits : Nat → Value → Prop
  | null {depth : Nat} : Fits depth .null
  | bool {depth : Nat} {value : Bool} : Fits depth (.bool value)
  | natural {depth value : Nat} (small : value < UInt64.size) : Fits depth (.natural value)
  | text {depth : Nat} {value : String} : Fits depth (.text value)
  | list {depth : Nat} {items : List Value} (each : ∀ item ∈ items, Fits depth item) :
      Fits (depth + 1) (.list items)
  | record {depth : Nat} {fields : List (String × Value)} (each : ∀ field ∈ fields, Fits depth field.2) :
      Fits (depth + 1) (.record fields)
  | choice {depth : Nat} {tag : String} {content : Value} (word : IsTag tag) (fits : Fits depth content) :
      Fits (depth + 1) (.choice tag content)

/-- Every field of a record has a value that fits. -/
def FieldsFit (depth : Nat) (fields : List (String × Value)) : Prop :=
  ∀ field ∈ fields, field.2.Fits depth

namespace FieldsFit

variable {depth : Nat} {name : String}

@[simp] theorem nil : FieldsFit depth [] := by simp [FieldsFit]

@[simp] theorem cons_iff {value : Value} {rest : List (String × Value)} :
    FieldsFit depth ((name, value) :: rest) ↔ value.Fits depth ∧ FieldsFit depth rest :=
  List.forall_mem_cons

@[simp] theorem append_iff {front back : List (String × Value)} :
    FieldsFit depth (front ++ back) ↔ FieldsFit depth front ∧ FieldsFit depth back :=
  List.forall_mem_append

@[simp] theorem field?_iff {value : Option Value} :
    FieldsFit depth (field? name value) ↔ ∀ content ∈ value, content.Fits depth := by
  cases value <;> simp [field?]

@[simp] theorem map_iff {α : Type} {write : α → String × Value} {items : List α} :
    FieldsFit depth (items.map write) ↔ ∀ item ∈ items, (write item).2.Fits depth :=
  List.forall_mem_map

end FieldsFit

namespace Fits

@[simp] theorem text_iff {depth : Nat} {value : String} : (Value.text value).Fits depth ↔ True :=
  iff_true_intro .text

@[simp] theorem bool_iff {depth : Nat} {value : Bool} : (Value.bool value).Fits depth ↔ True :=
  iff_true_intro .bool

@[simp] theorem null_iff {depth : Nat} : Value.null.Fits depth ↔ True := iff_true_intro .null

@[simp] theorem natural_iff {depth value : Nat} :
    (Value.natural value).Fits depth ↔ value < UInt64.size :=
  ⟨fun fits => by cases fits; assumption, .natural⟩

@[simp] theorem list_iff {depth : Nat} {items : List Value} :
    (Value.list items).Fits (depth + 1) ↔ ∀ item ∈ items, item.Fits depth :=
  ⟨fun fits => by cases fits; assumption, .list⟩

@[simp] theorem record_iff {depth : Nat} {fields : List (String × Value)} :
    (Value.record fields).Fits (depth + 1) ↔ FieldsFit depth fields :=
  ⟨fun fits => by cases fits; assumption, .record⟩

@[simp] theorem choice_iff {depth : Nat} {tag : String} {content : Value} :
    (Value.choice tag content).Fits (depth + 1) ↔ IsTag tag ∧ content.Fits depth :=
  ⟨fun fits => by cases fits; exact ⟨‹_›, ‹_›⟩, fun ⟨word, fits⟩ => .choice word fits⟩

@[simp] theorem listField_iff {depth : Nat} {name : String} {items : List Value} :
    FieldsFit (depth + 1) (listField name items) ↔ ∀ item ∈ items, item.Fits depth := by
  cases items <;> simp [listField]

@[simp] theorem texts {depth : Nat} {values : List String} : (Value.texts values).Fits (depth + 1) := by
  simp [Value.texts]

@[simp] theorem orNull_iff {depth : Nat} {α : Type} {write : α → Value} {content : Option α} :
    (orNull write content).Fits depth ↔ ∀ value ∈ content, (write value).Fits depth := by
  cases content <;> simp [orNull]

@[simp] theorem optionalText {depth : Nat} {content : Option String} :
    (Value.optionalText content).Fits depth := by
  simp [Value.optionalText]

end Fits

end Value

/-! ## Depth -/

namespace Tree

theorem itemsWithin_eq_self {depth : Nat} {items : List Tree}
    (each : ∀ item ∈ items, item.within depth = item) : itemsWithin depth items = items := by
  induction items with
  | nil => rfl
  | cons item rest ih =>
    rw [itemsWithin, each item List.mem_cons_self,
      ih fun other member => each other (List.mem_cons_of_mem _ member)]

theorem entriesWithin_eq_self {depth : Nat} {entries : List (Tree × Tree)}
    (keys : ∀ entry ∈ entries, entry.1.within depth = entry.1)
    (values : ∀ entry ∈ entries, entry.2.within depth = entry.2) :
    entriesWithin depth entries = entries := by
  induction entries with
  | nil => rfl
  | cons entry rest ih =>
    obtain ⟨key, value⟩ := entry
    rw [entriesWithin, keys (key, value) List.mem_cons_self, values (key, value) List.mem_cons_self,
      ih (fun other member => keys other (List.mem_cons_of_mem _ member))
        (fun other member => values other (List.mem_cons_of_mem _ member))]

theorem within_textTree (format : Format) (depth : Nat) (text : String) :
    (format.textTree text).within depth = format.textTree text := by
  unfold Format.textTree
  split
  · cases depth <;> rfl
  · split <;> cases depth <;> rfl

end Tree

namespace Value

/-- Nothing of a value that fits stands too deep. -/
theorem within_treeIn {depth limit : Nat} {value : Value} (fits : value.Fits depth)
    (deep : depth ≤ limit) (format : Format) :
    (value.treeIn format).within limit = value.treeIn format := by
  induction fits generalizing limit with
  | null => cases format <;> cases limit <;> rfl
  | @bool _ value => cases format <;> cases value <;> cases limit <;> rfl
  | natural small => cases format <;> cases limit <;> rfl
  | text => exact Tree.within_textTree format _ _
  | list each ih =>
    obtain ⟨limit, rfl⟩ := Nat.exists_eq_add_one_of_ne_zero (show limit ≠ 0 by omega)
    rw [treeIn, Tree.within, itemTrees_eq_map, Tree.itemsWithin_eq_self]
    intro tree written
    obtain ⟨item, member, rfl⟩ := List.mem_map.mp written
    exact ih item member (by omega)
  | record each ih =>
    obtain ⟨limit, rfl⟩ := Nat.exists_eq_add_one_of_ne_zero (show limit ≠ 0 by omega)
    rw [treeIn, Tree.within, fieldTrees_eq_map, Tree.entriesWithin_eq_self]
    · intro entry written
      obtain ⟨field, _, rfl⟩ := List.mem_map.mp written
      exact Tree.within_textTree format _ _
    · intro entry written
      obtain ⟨field, member, rfl⟩ := List.mem_map.mp written
      exact ih field member (by omega)
  | @choice depth tag content word fits ih =>
    obtain ⟨limit, rfl⟩ := Nat.exists_eq_add_one_of_ne_zero (show limit ≠ 0 by omega)
    cases format with
    | json =>
      have key : Tree.within limit (.text tag) = .text tag := Tree.within_textTree .json limit tag
      rw [treeIn, Format.choiceTree, Tree.within, Tree.entriesWithin, Tree.entriesWithin, key,
        ih (by omega)]
    | yaml => rw [treeIn, Format.choiceTree, Tree.within, ih (by omega)]

end Value

/-! ## Scalars -/

/-- A text that is written without marks stands for itself. -/
theorem Scalar.ofPlain_eq_text {text : String} (plain : Yaml.styleOf text = .plain) :
    Scalar.ofPlain text = .text := by
  have quoted : ∀ profile, Yaml.quotedStyle profile ≠ .plain := by
    intro profile
    unfold Yaml.quotedStyle
    split <;> simp
  by_contra other
  have marked : Yaml.needsMarks text = true := by simp [Yaml.needsMarks, other]
  simp only [Yaml.styleOf, marked, ↓reduceIte] at plain
  split at plain
  · split at plain <;> cases plain
  · exact quoted _ plain

theorem Scalar.isNull_eq_false {text : String} (plain : Yaml.styleOf text = .plain) :
    Scalar.isNull text = false := by
  by_contra null
  have other := ofPlain_eq_text plain
  simp [ofPlain, Bool.of_not_eq_false null] at other

namespace Tree

variable (format : Format)

@[simp] theorem text?_text (text : String) : (Tree.text text).text? = some text := rfl

@[simp] theorem text?_textTree (text : String) : (format.textTree text).text? = some text := by
  unfold Format.textTree
  split
  · rfl
  · split <;> rfl

@[simp] theorem typed?_textTree (text : String) : (format.textTree text).typed? = some (.text text) := by
  unfold Format.textTree
  split
  · rfl
  · split
    · rename_i plain
      simp [typed?, ofPlain, Scalar.ofPlain_eq_text plain]
    · rfl

@[simp] theorem isNull_textTree (text : String) : (format.textTree text).isNull = false := by
  unfold Format.textTree
  split
  · rfl
  · split
    · rename_i plain
      exact Scalar.isNull_eq_false plain
    · rfl

@[simp] theorem isNull_nullTree : format.nullTree.isNull = true := by cases format <;> rfl

@[simp] theorem bool?_boolTree (value : Bool) : (format.boolTree value).bool? = some value := by
  cases format <;> cases value <;> rfl

@[simp] theorem natural32?_naturalTree (value : Fin UInt32.size) :
    (format.naturalTree value).natural32? = some value := by
  cases format with
  | json => exact dif_pos value.isLt
  | yaml => simp [Format.naturalTree, natural32?, Text.unsigned?_toDigits, natural32?.below?]

@[simp] theorem name?_textTree {α : Type} (names : List (String × α)) (text : String) :
    name? names (format.textTree text) = names.lookup text := by
  have plain : ∀ tree : Tree, tree.text? = some text → name? names tree = names.lookup text := by
    intro tree found
    cases tree <;> simp_all [name?, text?]
  exact plain _ (text?_textTree format text)

@[simp] theorem choice?_choiceTree (tag : String) (content : Tree) :
    (format.choiceTree tag content).choice? = some (tag, content) := by
  cases format <;> rfl

end Tree

/-! ## Values -/

/-- What is written and read one by one is there again. -/
theorem mapM_map_eq_some {α β : Type} {write : α → β} {read : β → Option α} {items : List α}
    (each : ∀ item ∈ items, read (write item) = some item) :
    (items.map write).mapM read = some items := by
  induction items with
  | nil => rfl
  | cons item rest ih =>
    rw [List.map_cons, List.mapM_cons, each item List.mem_cons_self,
      ih fun other member => each other (List.mem_cons_of_mem _ member)]
    rfl

namespace Value

variable (format : Format)

@[simp] theorem treeIn_null : Value.null.treeIn format = format.nullTree := rfl

@[simp] theorem treeIn_bool (value : Bool) : (Value.bool value).treeIn format = format.boolTree value := rfl

@[simp] theorem treeIn_natural (value : Nat) :
    (Value.natural value).treeIn format = format.naturalTree value := rfl

@[simp] theorem treeIn_text (text : String) : (Value.text text).treeIn format = format.textTree text := rfl

@[simp] theorem treeIn_choice (tag : String) (content : Value) :
    (Value.choice tag content).treeIn format = format.choiceTree tag (content.treeIn format) := rfl

@[simp] theorem isNull_treeIn_list (items : List Value) :
    ((Value.list items).treeIn format).isNull = false := by
  simp [treeIn, Tree.isNull]

@[simp] theorem isNull_treeIn_record (fields : List (String × Value)) :
    ((Value.record fields).treeIn format).isNull = false := by
  simp [treeIn, Tree.isNull]

@[simp] theorem isNull_treeIn_texts (texts : List String) :
    ((Value.texts texts).treeIn format).isNull = false := by
  simp [Value.texts]

@[simp] theorem text?_treeIn_texts (texts : List String) :
    ((Value.texts texts).treeIn format).text? = none := by
  simp [Value.texts, treeIn, Tree.text?]

variable {format}

/-- A list is read item by item. -/
@[simp] theorem list?_treeIn {α : Type} {write : α → Value} {decode : Tree → Option α} {items : List α}
    (each : ∀ item ∈ items, decode ((write item).treeIn format) = some item) :
    Tree.list? decode ((Value.list (items.map write)).treeIn format) = some items := by
  rw [treeIn, itemTrees_eq_map, List.map_map]
  exact mapM_map_eq_some each

@[simp] theorem list?_treeIn_texts (texts : List String) :
    Tree.list? Tree.text? ((Value.texts texts).treeIn format) = some texts :=
  list?_treeIn fun text _ => Tree.text?_textTree format text

/-- A value or null is read as something or nothing, unless the value itself reads as null. -/
@[simp] theorem option?_treeIn_orNull {α : Type} {write : α → Value} {decode : Tree → Option α}
    {content : Option α} (each : ∀ value ∈ content, decode ((write value).treeIn format) = some value)
    (solid : ∀ value ∈ content, ((write value).treeIn format).isNull = false) :
    Tree.option? decode ((Value.orNull write content).treeIn format) = some content := by
  cases content with
  | none => simp [orNull, Tree.option?]
  | some value => simp [orNull, Tree.option?, each value rfl, solid value rfl]

@[simp] theorem option?_treeIn_optionalText (content : Option String) :
    Tree.option? Tree.text? ((Value.optionalText content).treeIn format) = some content :=
  option?_treeIn_orNull (fun _ _ => by simp) (fun _ _ => by simp)

/-! ## Values without types of their own -/

/-- The values that show their types by themselves in either format: no numbers, alternatives or gaps. -/
inductive SelfTyped : Value → Prop
  | bool {value : Bool} : SelfTyped (.bool value)
  | text {value : String} : SelfTyped (.text value)
  | list {items : List Value} (each : ∀ item ∈ items, SelfTyped item) : SelfTyped (.list items)
  | record {fields : List (String × Value)} (each : ∀ field ∈ fields, SelfTyped field.2) :
      SelfTyped (.record fields)

/-- Read without regard to what is expected, such a value is what it is in a format with types. -/
@[simp] theorem typed?_treeIn (format : Format) {value : Value} (typed : value.SelfTyped) :
    (value.treeIn format).typed? = some (value.treeIn .json) := by
  induction typed with
  | @bool value => cases format <;> cases value <;> rfl
  | text => exact Tree.typed?_textTree format _
  | @list items each ih =>
    have all : Tree.typedItems? (itemTrees format items) = some (itemTrees .json items) := by
      clear each
      induction items with
      | nil => rfl
      | cons item rest others =>
        rw [itemTrees, Tree.typedItems?, ih item List.mem_cons_self,
          others fun other member => ih other (List.mem_cons_of_mem _ member)]
        rfl
    rw [treeIn, Tree.typed?, all]
    rfl
  | @record fields each ih =>
    have all : Tree.typedEntries? (fieldTrees format fields) = some (fieldTrees .json fields) := by
      clear each
      induction fields with
      | nil => rfl
      | cons field rest others =>
        rw [fieldTrees, Tree.typedEntries?, Tree.typed?_textTree, ih field List.mem_cons_self,
          others fun other member => ih other (List.mem_cons_of_mem _ member)]
        rfl
    rw [treeIn, Tree.typed?, all]
    rfl

namespace SelfTyped

theorem texts (values : List String) : (Value.texts values).SelfTyped :=
  .list fun _ member => by
    obtain ⟨_, _, rfl⟩ := List.mem_map.mp member
    exact .text

end SelfTyped

end Value

/-! ## Tables -/

namespace Tree

variable {κ α : Type} {format : Format}

/-- A table is read entry by entry. -/
theorem table?_treeIn {entries : List (κ × α)} {writeKey : κ → String} {write : α → Value}
    {decodeKey : Tree → Option κ} {decode : Tree → Option α}
    (keys : ∀ entry ∈ entries, decodeKey (format.textTree (writeKey entry.1)) = some entry.1)
    (values : ∀ entry ∈ entries, decode ((write entry.2).treeIn format) = some entry.2) :
    table? decodeKey decode
      ((Value.record (entries.map fun (key, value) => (writeKey key, write value))).treeIn format) =
      some entries := by
  rw [Value.treeIn, Value.fieldTrees_eq_map, List.map_map]
  refine mapM_map_eq_some fun entry member => ?_
  simp [keys entry member, values entry member]

end Tree

end ClassModel.Document

namespace ClassModel.Table

open Document

variable {α : Type} {format : Format}

theorem ofList_entries {κ : Type} [DecidableEq κ] (table : Table κ α) : ofList table.entries = table :=
  ext (entries_ofList table.nodup)

@[simp] theorem byName?_toValue {table : Table Name α} {write : α → Value} {decode : Tree → Option α}
    (values : ∀ entry ∈ table.entries, decode ((write entry.2).treeIn format) = some entry.2) :
    byName? decode ((table.toValue id write).treeIn format) = some table := by
  rw [byName?, toValue, Tree.table?_treeIn (fun _ _ => by simp) values, Option.map_some, ofList_entries]

@[simp] theorem byRnum?_toValue {table : Table Rnum α} {write : α → Value} {decode : Tree → Option α}
    (values : ∀ entry ∈ table.entries, decode ((write entry.2).treeIn format) = some entry.2) :
    byRnum? decode ((table.toValue Rnum.text write).treeIn format) = some table := by
  rw [byRnum?, toValue, Tree.table?_treeIn (fun _ _ => by simp [Rnum.ofTree?]) values, Option.map_some,
    ofList_entries]

@[simp] theorem fits_toValue {κ : Type} {table : Table κ α} {key : κ → String} {write : α → Value}
    {depth : Nat} :
    (table.toValue key write).Fits (depth + 1) ↔ ∀ entry ∈ table.entries, (write entry.2).Fits depth := by
  rw [toValue, Value.Fits.record_iff, Value.FieldsFit.map_iff]

end ClassModel.Table
