import KernelCheck.Rule.Findings

/-!
# Loop headers

The second family of rules.  An outer or inner loop is mapped to a launch grid,
so its number of iterations has to be readable off the header

    for (T i = start; i < bound; step)

in which `T` is an integer type, the comparison is one by order, and the step
adds something to `i`, or takes something off it, that does not depend on `i`.

* `LoopHeader.shape` yields the induction variable of a header of that form, or
  at most one problem for each clause.  The test and the update are judged
  whenever it is clear which variable they should be about.
-/

namespace KernelCheck

namespace LoopHeader

/-- The induction variable that the first clause declares.  Otherwise: what is
wrong, where, and the variable if exactly one is declared all the same. -/
def induction (t : Interner) (h : LoopHeader) :
    Except (InductionIssue × Span × Option Name) Name :=
  match h.init with
  | none => .error (.missingInit, h.span, none)
  | some (.expr e) => .error (.notADeclaration, e.span, none)
  | some (.decl d) =>
    match d.declarators with
    | [only] =>
      if !only.dims.isEmpty then .error (.arrayInduction, only.span, some only.name)
      else if only.init.isNone then .error (.missingInitializer, only.span, some only.name)
      else if !d.type.isIntegral t then .error (.nonIntegralType, d.span, some only.name)
      else .ok only.name
    | many => .error (.declaratorCount many.length, d.span, none)

/-- What is wrong with the test, and where. -/
def testIssue? (h : LoopHeader) (var : Name) : Option (TestIssue × Span) :=
  match h.test with
  | none => some (.missing, h.span)
  | some (.binary op left right s) =>
    if !op.isRelational then some (.notRelational, (Expr.binary op left right s).span)
    else if left.ident? = some var then none
    else some (.wrongOperand, left.span)
  | some test => some (.notRelational, test.span)

end LoopHeader

namespace Expr

/-- The amount of a step must not mention the variable. -/
def amountIssue? (amount : Expr) (var : Name) : Option UpdateIssue :=
  if amount.mentions var then some .stepReferencesVar else none

/-- What is wrong with the value that a plain assignment gives to `var`: it has to
be `var + k`, `var - k` or `k + var`. -/
def nextValueIssue? (value : Expr) (var : Name) : Option UpdateIssue :=
  match value with
  | binary op left right _ =>
    if op.isAdditive && left.ident? = some var then right.amountIssue? var
    else if op = .add && right.ident? = some var then left.amountIssue? var
    else some .notAdditive
  | _ => some .notAdditive

/-- What is wrong with an update as a step of `var`. -/
def stepIssue? (update : Expr) (var : Name) : Option UpdateIssue :=
  match update with
  | unary op operand _ =>
    if !op.isStep then some .notAdditive
    else if operand.ident? = some var then none
    else some .wrongVariable
  | assign op target value _ =>
    if target.ident? ≠ some var then some .wrongVariable
    else
      match op with
      | .add | .sub => value.amountIssue? var
      | .assign => value.nextValueIssue? var
      | _ => some .notAdditive
  | _ => some .notAdditive

end Expr

namespace LoopHeader

/-- What is wrong with the update, and where. -/
def updateIssue? (h : LoopHeader) (var : Name) : Option (UpdateIssue × Span) :=
  match h.update with
  | none => some (.missing, h.span)
  | some update => (update.stepIssue? var).map (·, update.span)

/-- The problem with the first clause, if there is one, and the variable that the
other clauses have to be about. -/
def inductionProblem (t : Interner) (h : LoopHeader) : Option Problem × Option Name :=
  match h.induction t with
  | .ok var => (none, some var)
  | .error (issue, span, var) => (some (.badInduction span h.span issue), var)

/-- The problem with the test, if there is one. -/
def testProblem? (h : LoopHeader) (var : Name) : Option Problem :=
  (h.testIssue? var).map fun (issue, span) => .badTest span var issue

/-- The problem with the update, if there is one. -/
def updateProblem? (h : LoopHeader) (var : Name) : Option Problem :=
  (h.updateIssue? var).map fun (issue, span) => .badUpdate span var issue

/-- The induction variable of a well-formed header, or what is wrong with it,
clause by clause. -/
def shape (t : Interner) (h : LoopHeader) : Except (List Problem) Name :=
  match h.inductionProblem t with
  | (problem, none) => .error problem.toList
  | (problem, some var) =>
    let problems :=
      problem.toList ++ (h.testProblem? var).toList ++ (h.updateProblem? var).toList
    if problems.isEmpty then .ok var else .error problems

/-- The problems with the shape of a loop; plain loops may have any. -/
def shapeProblems (t : Interner) (h : LoopHeader) : List Problem :=
  if h.role.isAttributed then
    match h.shape t with
    | .ok _ => []
    | .error problems => problems
  else []

end LoopHeader

/-- The rules on the headers of outer and inner loops, in source order. -/
def Stage.headers : Stage := fun s f =>
  s.kernel.loops.foldl
    (fun f header => f.unlessClosed (·.pushAll (header.shapeProblems s.names))) f

end KernelCheck
