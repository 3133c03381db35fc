import KernelCheck.Rule.Findings

/-!
# Jumps

The fifth family of rules.  Outer and inner loops run as a grid in which every
iteration takes place, so no jump may end one or cut short an iteration of one.
Jumps that stay within a plain loop or a switch are free.

* A `break` ends the innermost loop or switch.
* A `continue` goes on with the innermost loop; switches do not matter to it.
-/

namespace KernelCheck

/-- A statement around a jump that the jump may be bound to. -/
inductive JumpTarget where
  | loop (role : LoopRole) (span : Span)
  | switch
  deriving DecidableEq

namespace Jumps

/-- The loop that a `break` inside these targets ends, if it ends a loop; the
innermost target comes first. -/
def breakLoop? : List JumpTarget → Option (LoopRole × Span)
  | .loop role span :: _ => some (role, span)
  | _ => none

/-- The loop that a `continue` inside these targets goes on with. -/
def continueLoop? : List JumpTarget → Option (LoopRole × Span)
  | [] => none
  | .loop role span :: _ => some (role, span)
  | .switch :: rest => continueLoop? rest

/-- The problem with a `break`. -/
def breakProblem? (targets : List JumpTarget) (span : Span) : Option Problem :=
  ((breakLoop? targets).filter (·.1.isAttributed)).map fun (role, loopSpan) =>
    .illegalBreak span loopSpan role

/-- The problem with a `continue`. -/
def continueProblem? (targets : List JumpTarget) (span : Span) : Option Problem :=
  ((continueLoop? targets).filter (·.1.isAttributed)).map fun (role, loopSpan) =>
    .illegalContinue span loopSpan role

mutual

/-- The jumps in a statement that stands inside these targets. -/
def check (targets : List JumpTarget) : Stmt → Findings → Findings
  | .breakJump span, f => f.pushAll (breakProblem? targets span).toList
  | .continueJump span, f => f.pushAll (continueProblem? targets span).toList
  | .block stmts _ _, f => checkList targets stmts f
  | .forLoop header body _, f => check (.loop header.role header.span :: targets) body f
  | .whileLoop _ body span, f | .doWhile body _ span, f =>
    check (.loop .plain span :: targets) body f
  | .switch _ body _, f => check (.switch :: targets) body f
  | .ifThen _ a _, f => check targets a f
  | .ifElse _ a b _, f => (check targets a f).unlessClosed (check targets b)
  | .expr .., f | .decl .., f | .caseLabel .., f | .returnJump .., f | .empty .., f => f

/-- The jumps in the statements of a block, as long as the findings are open. -/
def checkList (targets : List JumpTarget) : List Stmt → Findings → Findings
  | [], f => f
  | s :: rest, f => f.unlessClosed fun f => checkList targets rest (check targets s f)

end

end Jumps

/-- The rules on jumps. -/
def Stage.jumps : Stage := fun s f =>
  Jumps.checkList [] s.kernel.body.stmts f

end KernelCheck
