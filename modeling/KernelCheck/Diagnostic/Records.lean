import KernelCheck.Diagnostic.Basic
import KernelCheck.Diagnostic.Source
import KernelCheck.Json.Printer

/-!
# Diagnostics as records

What a tool reads: one JSON array with an object for each diagnostic.  Records
are kept until the end, so that a run writes a single document, which is an empty
array if there is nothing to report.

A label carries a file, a line and a column if the source is at hand, and only
offsets otherwise.
-/

namespace KernelCheck

/-- The members that tell where a label stands in the source. -/
def Label.location (source : Option Source) (l : Label) : List (String × Json) :=
  match source with
  | none => []
  | some source =>
    let (line, column) := source.spanStart l.span
    [("file", .ofText source.path), ("line", .ofNat line), ("column", .ofNat column)]

/-- The record of a label. -/
def Label.toJson (source : Option Source) (l : Label) : Json :=
  .ofMembers <|
    [("start", .ofNat l.span.start), ("end", .ofNat l.span.stop)] ++ l.location source ++
      [("message", .ofText l.message), ("primary", .bool l.isPrimary)]

/-- The record of a diagnostic. -/
def Diagnostic.toJson (source : Option Source) (d : Diagnostic) : Json :=
  .ofMembers
    [("code", .ofText d.code.text),
     ("severity", .ofText d.severity.text),
     ("message", .ofText d.message),
     ("labels", .array (d.labels.map (Label.toJson source))),
     ("notes", .array (d.notes.map Json.ofText)),
     ("suggestions", .array (d.suggestions.map Json.ofText))]

/-- Records that have not been written yet, in order. -/
structure RecordBuffer where
  source : Option Source
  records : List Json

namespace RecordBuffer

/-- No records. -/
def empty (source : Option Source) : RecordBuffer := ⟨source, []⟩

/-- Keeps the record of a diagnostic. -/
def add (b : RecordBuffer) (d : Diagnostic) : RecordBuffer :=
  { b with records := b.records ++ [d.toJson b.source] }

/-- Keeps the records of several diagnostics. -/
def addAll (b : RecordBuffer) (ds : List Diagnostic) : RecordBuffer := ds.foldl add b

/-- The document of all records kept, and the buffer after they are gone. -/
def finish (b : RecordBuffer) : String × RecordBuffer :=
  ((Json.array b.records).pretty ++ "\n", { b with records := [] })

end RecordBuffer

end KernelCheck
