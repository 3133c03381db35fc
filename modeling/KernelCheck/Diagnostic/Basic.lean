import KernelCheck.Diagnostic.Code
import KernelCheck.Span

/-!
# Diagnostics

A diagnostic tells a person what is wrong and where: a code, one line of text,
labels on the nodes concerned, notes for context and suggestions for a remedy.
The parts keep the order in which they are added.
-/

namespace KernelCheck

/-- Only errors reject a kernel. -/
inductive Severity where
  | error | warning
  deriving DecidableEq

/-- The severity as a word. -/
def Severity.text : Severity → String
  | error => "error"
  | warning => "warning"

/-- A remark on a span.  A primary label marks the node that breaks the rule, a
secondary one what makes it so. -/
structure Label where
  span : Span
  message : String
  isPrimary : Bool
  deriving DecidableEq

/-- The arrow in front of a label that is shown by its span alone. -/
def Label.arrow (l : Label) : String := if l.isPrimary then "-->" else "   "

/-- A message about one place and what belongs to it. -/
structure Diagnostic where
  code : Code
  severity : Severity
  message : String
  labels : List Label
  notes : List String
  suggestions : List String
  deriving DecidableEq

namespace Diagnostic

/-- An error that says nothing yet. -/
def error (code : Code) : Diagnostic := ⟨code, .error, "", [], [], []⟩

/-- A warning that says nothing yet. -/
def warning (code : Code) : Diagnostic := ⟨code, .warning, "", [], [], []⟩

/-- Sets the message. -/
def saying (d : Diagnostic) (message : String) : Diagnostic := { d with message }

/-- Adds a primary label. -/
def pointingAt (d : Diagnostic) (span : Span) (message : String) : Diagnostic :=
  { d with labels := d.labels ++ [⟨span, message, true⟩] }

/-- Adds a secondary label. -/
def alongside (d : Diagnostic) (span : Span) (message : String) : Diagnostic :=
  { d with labels := d.labels ++ [⟨span, message, false⟩] }

/-- Adds a note. -/
def noting (d : Diagnostic) (note : String) : Diagnostic :=
  { d with notes := d.notes ++ [note] }

/-- Adds a suggestion. -/
def suggesting (d : Diagnostic) (suggestion : String) : Diagnostic :=
  { d with suggestions := d.suggestions ++ [suggestion] }

/-- The span of the first primary label. -/
def primarySpan? (d : Diagnostic) : Option Span :=
  (d.labels.find? (·.isPrimary)).map (·.span)

/-- The diagnostic rejects a kernel. -/
def isError (d : Diagnostic) : Bool := d.severity == .error

/-- Numbers of errors and of warnings in a list. -/
def counts (ds : List Diagnostic) : Nat × Nat :=
  let errors := ds.countP isError
  (errors, ds.length - errors)

/-- Notes and suggestions with the word in front of each, in the order in which
they are shown. -/
def trailers (d : Diagnostic) : List (String × String) :=
  d.notes.map ("note", ·) ++ d.suggestions.map ("help", ·)

/-- The diagnostic in plain text, where a span stands for the source: a line for
each part, and no line end after the last. -/
def text (d : Diagnostic) : String :=
  s!"{d.severity.text} [{d.code.text}]: {d.message}" ++
    String.join (d.labels.map fun l => s!"\n  {l.arrow} {l.span.text}: {l.message}") ++
    String.join (d.trailers.map fun (word, content) => s!"\n  = {word}: {content}")

end Diagnostic

end KernelCheck
