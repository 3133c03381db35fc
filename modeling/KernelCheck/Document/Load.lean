import KernelCheck.Document.Schema
import KernelCheck.Document.ToModule
import KernelCheck.Json.Reader

/-!
# Loading modules

From the text of a serialized module to its syntax tree.  The whole text is read
and held against the schema before anything else happens, so a malformed text is
reported as such even if a bad span or an empty name comes earlier in it.
-/

namespace KernelCheck

/-- The document that a text holds; `origin` names the text in errors. -/
def Document.parse (text origin : String) : Except LoadError Document :=
  match (Json.parse? text).bind Document.ofJson? with
  | some document => .ok document
  | none => .error (.notADocument origin)

/-- The module that a text holds, with its names added to the table. -/
def Module.parse (text origin : String) : Loading Module := do
  let document ← Document.parse text origin
  document.toModule

end KernelCheck
