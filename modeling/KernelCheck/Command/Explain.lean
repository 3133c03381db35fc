import KernelCheck.Diagnostic.Page

/-!
# Explaining a code

Whoever meets a code in a diagnostic can ask for its page.
-/

namespace KernelCheck

/-- No rule has this code. -/
structure UnknownCode where
  text : String
  deriving DecidableEq

/-- The error in words. -/
def UnknownCode.message (e : UnknownCode) : String :=
  s!"unknown error code: {e.text}\n\nCodes have the format EXXXX, for example E3003."

/-- The page of a code. -/
def explain (code : String) : Except UnknownCode String :=
  match Code.parse? code with
  | some c => .ok c.page
  | none => .error ⟨code⟩

end KernelCheck
