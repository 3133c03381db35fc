import KernelCheck.Syntax.Stmt

/-!
# Functions and modules

A module is a list of functions in source order.  The functions marked
`@kernel` are the kernels, and they alone are checked.
-/

namespace KernelCheck

/-- A parameter of a function. -/
structure Param where
  name : Name
  type : CType
  span : Span
  deriving DecidableEq

/-- A function definition. -/
structure Function where
  name : Name
  params : List Param
  returns : CType
  body : Block
  markers : List Marker
  span : Span

namespace Function

/-- Some marker of the function is of this kind. -/
def hasMarker (f : Function) (kind : MarkerKind) : Bool :=
  f.markers.any (·.kind == kind)

/-- The function is marked `@kernel`, whatever other markers it has. -/
def isKernel (f : Function) : Bool := f.hasMarker .kernel

/-- The headers of all `for` loops of the function, in source order. -/
def loops (f : Function) : List LoopHeader := Stmt.loopsList f.body.stmts

end Function

/-- The functions of a source file, in source order. -/
structure Module where
  functions : List Function

namespace Module

/-- The kernels of the module, in source order. -/
def kernels (m : Module) : List Function := m.functions.filter (·.isKernel)

end Module

end KernelCheck
