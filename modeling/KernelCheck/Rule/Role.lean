import KernelCheck.Syntax.Function

/-!
# Roles

A loop is outer, inner or plain, and a declaration is shared, exclusive or
plain.  The role is read off the first marker that gives one, whatever else is
attached, so every node has exactly one role and later rules need not care
whether the markers were in order.
-/

namespace KernelCheck

/-- Role of a loop. -/
inductive LoopRole where
  | plain | outer | inner
  deriving DecidableEq

namespace LoopRole

/-- The role that a marker gives to a loop. -/
def ofKind? : MarkerKind → Option LoopRole
  | .outer => some outer
  | .inner => some inner
  | _ => none

/-- The loop is mapped to the launch grid, as outer and inner ones are. -/
def isAttributed (r : LoopRole) : Bool := r != plain

/-- The word of the marker; a plain loop has none. -/
def text : LoopRole → String
  | plain => ""
  | outer => "outer"
  | inner => "inner"

end LoopRole

/-- The role of a loop with a header. -/
def LoopHeader.role (h : LoopHeader) : LoopRole :=
  (h.markers.findSome? fun m => LoopRole.ofKind? m.kind).getD .plain

/-- Role of a declaration. -/
inductive DeclRole where
  | plain | shared | exclusive
  deriving DecidableEq

namespace DeclRole

/-- The role that a marker gives to a declaration. -/
def ofKind? : MarkerKind → Option DeclRole
  | .shared => some shared
  | .exclusive => some exclusive
  | _ => none

end DeclRole

/-- The role of a declaration. -/
def Declaration.role (d : Declaration) : DeclRole :=
  (d.markers.findSome? fun m => DeclRole.ofKind? m.kind).getD .plain

end KernelCheck
