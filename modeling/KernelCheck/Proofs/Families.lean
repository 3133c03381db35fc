import KernelCheck.Proofs.Findings
import KernelCheck.Rule.Headers
import KernelCheck.Rule.Jumps
import KernelCheck.Rule.Markers

/-!
# What the rules on markers, headers and jumps find

These three families look at the nodes of a kernel one by one, and what they
find at a node does not depend on what they found before.  Each of them
therefore finds one list of problems, put together in source order.

* `Stage.markers_finds` — the problems with the kernel's own markers, and then
  those of each loop and declaration.
* `Stage.headers_finds` — the problems of each loop header.
* `Stage.jumps_finds` — the problems of each jump, with the targets around it.
-/

namespace KernelCheck

/-- The problems with the markers of a kernel and of everything in it. -/
def Subject.markerProblems (s : Subject) : List Problem :=
  problemsOf (s.kernel.strictKernel s.registry) ++
    (Stmt.markerSitesList s.kernel.body.stmts).flatMap (·.problems s.registry)

/-- The rules on markers append the problems with markers. -/
theorem Stage.markers_finds (s : Subject) : Stage.markers.Finds s s.markerProblems := by
  intro f
  unfold Stage.markers Subject.markerProblems
  rw [Findings.foldl_unlessClosed_pushAll, Findings.pushAll_append]

/-- The problems with the headers of the loops of a kernel. -/
def Subject.headerProblems (s : Subject) : List Problem :=
  s.kernel.loops.flatMap (·.shapeProblems s.names)

/-- The rules on headers append the problems with headers. -/
theorem Stage.headers_finds (s : Subject) : Stage.headers.Finds s s.headerProblems := by
  intro f
  exact Findings.foldl_unlessClosed_pushAll _ _ f

namespace Jumps

mutual

/-- The problems with the jumps in a statement that stands inside these targets. -/
def problems (targets : List JumpTarget) : Stmt → List Problem
  | .breakJump span => (breakProblem? targets span).toList
  | .continueJump span => (continueProblem? targets span).toList
  | .block stmts _ _ => problemsList targets stmts
  | .forLoop header body _ => problems (.loop header.role header.span :: targets) body
  | .whileLoop _ body span | .doWhile body _ span => problems (.loop .plain span :: targets) body
  | .switch _ body _ => problems (.switch :: targets) body
  | .ifThen _ a _ => problems targets a
  | .ifElse _ a b _ => problems targets a ++ problems targets b
  | .expr .. | .decl .. | .caseLabel .. | .returnJump .. | .empty .. => []

/-- The problems with the jumps in several statements. -/
def problemsList (targets : List JumpTarget) : List Stmt → List Problem
  | [] => []
  | s :: rest => problems targets s ++ problemsList targets rest

end

mutual

/-- Judging the jumps of a statement appends their problems. -/
theorem check_eq_pushAll (targets : List JumpTarget) :
    ∀ (s : Stmt) (f : Findings), check targets s f = f.pushAll (problems targets s)
  | .breakJump _, _ | .continueJump _, _ => rfl
  | .block stmts _ _, f => checkList_eq_pushAll targets stmts f
  | .forLoop header body _, f =>
      check_eq_pushAll (.loop header.role header.span :: targets) body f
  | .whileLoop _ body span, f | .doWhile body _ span, f =>
      check_eq_pushAll (.loop .plain span :: targets) body f
  | .switch _ body _, f => check_eq_pushAll (.switch :: targets) body f
  | .ifThen _ a _, f => check_eq_pushAll targets a f
  | .ifElse _ a b _, f => by
      have hb : ∀ f, check targets b f = f.pushAll (problems targets b) :=
        check_eq_pushAll targets b
      rw [check, problems, check_eq_pushAll targets a f, Findings.pushAll_append]
      exact Findings.unlessClosed_eq_pushAll fun _ => hb _
  | .expr .., _ | .decl .., _ | .caseLabel .., _ | .returnJump .., _ | .empty .., _ => rfl

/-- The same for several statements. -/
theorem checkList_eq_pushAll (targets : List JumpTarget) :
    ∀ (stmts : List Stmt) (f : Findings),
      checkList targets stmts f = f.pushAll (problemsList targets stmts)
  | [], _ => rfl
  | s :: rest, f => by
      rw [checkList, problemsList]
      apply Findings.unlessClosed_eq_pushAll
      intro _
      rw [checkList_eq_pushAll targets rest, check_eq_pushAll targets s,
        Findings.pushAll_append]

end

end Jumps

/-- The problems with the jumps of a kernel. -/
def Subject.jumpProblems (s : Subject) : List Problem :=
  Jumps.problemsList [] s.kernel.body.stmts

/-- The rules on jumps append the problems with jumps. -/
theorem Stage.jumps_finds (s : Subject) : Stage.jumps.Finds s s.jumpProblems := by
  intro f
  exact Jumps.checkList_eq_pushAll [] s.kernel.body.stmts f

end KernelCheck
