import ClassModel.Identifier

/-! # Diagnostics

What an analysis reports to its user. The continuation lines of a message are indented so that
they stand under its first line.
-/

namespace ClassModel

inductive Severity where
  | error
  | warning
  deriving DecidableEq, Repr

/-- A message with the model element that it is about. -/
structure Diagnostic where
  severity : Severity
  code : Option Name := none
  message : String
  className : Option Name := none
  subsystem : Option Name := none
  deriving DecidableEq, Repr

namespace Diagnostic

/-- Seventeen spaces, as many as stand before the first line of a message. -/
def indentation : List Char := List.replicate 17 ' '

/-- A message with its continuation lines under its first line. -/
def indented (message : List Char) : List Char :=
  message.flatMap fun c => if c = '\n' then c :: indentation else [c]

/-- How a diagnostic is shown. -/
def render (diagnostic : Diagnostic) : String :=
  "Model-Analysis: [" ++ String.ofList (indented diagnostic.message.toList) ++ "]"

def isError (diagnostic : Diagnostic) : Bool := diagnostic.severity = .error

/-- The warnings among the diagnostics, in order. -/
def warnings (diagnostics : List Diagnostic) : List Diagnostic :=
  diagnostics.filter (·.severity = .warning)

def hasErrors (diagnostics : List Diagnostic) : Bool := diagnostics.any isError

end Diagnostic

end ClassModel
