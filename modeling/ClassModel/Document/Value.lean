/-! # Document values

What a document says, independent of the format it is written in.
-/

namespace ClassModel.Document

/-- A value that can be written as a document. -/
inductive Value where
  | null
  | bool (value : Bool)
  | natural (value : Nat)
  | text (value : String)
  | list (items : List Value)
  /-- Fields or table entries in order. -/
  | record (fields : List (String × Value))
  /-- One of several alternatives, told by a tag. -/
  | choice (tag : String) (content : Value)
  deriving Repr, Inhabited

namespace Value

def texts (values : List String) : Value := .list (values.map .text)

/-- A field that is left out when there is nothing to write. -/
def field? (name : String) (value : Option Value) : List (String × Value) :=
  (value.map (name, ·)).toList

/-- A list field that is left out when the list is empty. -/
def listField (name : String) (items : List Value) : List (String × Value) :=
  if items.isEmpty then [] else [(name, .list items)]

end Value

end ClassModel.Document
