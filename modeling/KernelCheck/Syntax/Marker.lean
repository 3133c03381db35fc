import KernelCheck.Name
import KernelCheck.Span

/-!
# Markers

A marker is a word with an `@` in front, such as `@outer`, attached to a
function, a loop or a declaration.  Five markers are built in; every other word
is a custom marker, which only a registry can give a place.
-/

namespace KernelCheck

/-- What a marker says. -/
inductive MarkerKind where
  | kernel | outer | inner | shared | exclusive
  | custom (name : Name)
  deriving DecidableEq

namespace MarkerKind

/-- The built-in marker with a given word (without the `@`). -/
def builtin? : String → Option MarkerKind
  | "kernel" => some kernel
  | "outer" => some outer
  | "inner" => some inner
  | "shared" => some shared
  | "exclusive" => some exclusive
  | _ => none

/-- The marker with a given word.  Only a custom word enters the table. -/
def ofText (s : String) (t : Interner) : MarkerKind × Interner :=
  match builtin? s with
  | some kind => (kind, t)
  | none =>
    let (name, t) := t.intern s
    (custom name, t)

/-- The word of a marker, without the `@`. -/
def text (t : Interner) : MarkerKind → String
  | kernel => "kernel"
  | outer => "outer"
  | inner => "inner"
  | shared => "shared"
  | exclusive => "exclusive"
  | custom name => t.lookup name

/-- Markers that no registry has to know. -/
def isBuiltin : MarkerKind → Bool
  | custom _ => false
  | _ => true

end MarkerKind

/-- A marker at its place in the source. -/
structure Marker where
  kind : MarkerKind
  span : Span
  deriving DecidableEq

end KernelCheck
