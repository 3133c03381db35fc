import KernelCheck.Rule.Headers
import KernelCheck.Rule.Jumps
import KernelCheck.Rule.Markers
import KernelCheck.Rule.Nesting
import KernelCheck.Rule.Storage

/-!
# Verdicts and reports

A kernel is held against five families of rules, one after the other, and the
verdict on it lists the problems in that order.  The report on a module has one
verdict for each kernel, in source order.

* `Function.verdict` looks no further than the first problem if no more than that
  is wanted.
* `Report.diagnostics` puts every problem into words and adds in which kernel it
  was found.
-/

namespace KernelCheck

namespace Stage

/-- The families of rules, in the order in which they are checked. -/
def all : List Stage := [markers, headers, nesting, storage, jumps]

/-- Every family of rules in turn, as long as the findings are open. -/
def inTurn : Stage := fun subject f =>
  all.foldl (fun f stage => f.unlessClosed (stage subject)) f

end Stage

/-- What was found in one kernel. -/
structure Verdict where
  kernel : Name
  span : Span
  problems : List Problem
  deriving DecidableEq

/-- Nothing was found. -/
def Verdict.passed (v : Verdict) : Bool := v.problems.isEmpty

/-- Holds one function against all rules, whether it is marked as a kernel or
not. -/
def Function.verdict (kernel : Function) (names : Interner) (registry : Registry)
    (extent : Extent) : Verdict :=
  let findings := Stage.inTurn { kernel, names, registry } (.empty extent)
  { kernel := kernel.name, span := kernel.span, problems := findings.problems }

/-- The verdicts on the kernels of a module, in source order. -/
structure Report where
  verdicts : List Verdict
  deriving DecidableEq

namespace Report

/-- Every kernel passed. -/
def passed (r : Report) : Bool := r.verdicts.all (·.passed)

/-- Number of problems in all kernels. -/
def problemCount (r : Report) : Nat :=
  r.verdicts.foldr (fun v n => v.problems.length + n) 0

/-- The verdicts on kernels that did not pass. -/
def rejected (r : Report) : List Verdict := r.verdicts.filter (!·.passed)

end Report

/-- The problems of a verdict in words; the last note of each names the kernel. -/
def Verdict.diagnostics (v : Verdict) (names : Interner) : List Diagnostic :=
  v.problems.map fun p =>
    (p.diagnostic names).noting s!"in kernel `{names.lookup v.kernel}`"

/-- All problems of a report in words. -/
def Report.diagnostics (r : Report) (names : Interner) : List Diagnostic :=
  r.rejected.flatMap (·.diagnostics names)

namespace Module

/-- Holds every kernel of a module against the rules. -/
def report (m : Module) (names : Interner) (registry : Registry) (extent : Extent) : Report :=
  ⟨m.kernels.map (·.verdict names registry extent)⟩

/-- Every kernel of a module passes; no kernel is looked at beyond its first
problem. -/
def passes (m : Module) (names : Interner) (registry : Registry) : Bool :=
  (m.report names registry .first).passed

end Module

end KernelCheck
