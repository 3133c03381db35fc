import KernelCheck.Proofs.Findings
import KernelCheck.Rule.Nesting

/-!
# What the rules on nesting find

The rules on hierarchy and depth go through the statements of a kernel with the
findings in hand, and stop early when those are closed.  Here the same is said
without findings: which problems a statement has, and which loops it reaches.

* `Nesting.frontier` — the loops that a statement reaches.  A traversal that is
  cut short reaches fewer, but then its findings are closed already.
* `Nesting.collect_eq` — the traversal adds these loops and these problems.
* `Stage.nesting_finds` — presence, hierarchy and depth, one after the other.
-/

namespace KernelCheck

namespace Nesting

mutual

/-- The problems with the order of the loops in a statement that stands below
`above`. -/
def hierarchyProblems (above : Above) : Stmt → List Problem
  | .expr .. | .decl .. | .caseLabel .. | .breakJump .. | .continueJump .. | .returnJump ..
  | .empty .. => []
  | .block stmts _ _ => hierarchyProblemsList above stmts
  | .ifThen _ a _ => hierarchyProblems above a
  | .ifElse _ a b _ => hierarchyProblems above a ++ hierarchyProblems above b
  | .forLoop header body _ =>
    (above.problem? header).toList ++ hierarchyProblems (above.enter header) body
  | .whileLoop _ body _ | .doWhile body _ _ | .switch _ body _ => hierarchyProblems above body

/-- The same for several statements. -/
def hierarchyProblemsList (above : Above) : List Stmt → List Problem
  | [] => []
  | s :: rest => hierarchyProblems above s ++ hierarchyProblemsList above rest

end

mutual

/-- The traversal for the hierarchy appends the loops of a statement that are in a wrong place. -/
theorem hierarchy_eq_pushAll (above : Above) :
    ∀ (s : Stmt) (f : Findings), hierarchy above s f = f.pushAll (hierarchyProblems above s)
  | .expr .., _ | .decl .., _ | .caseLabel .., _ | .breakJump .., _ | .continueJump .., _
  | .returnJump .., _ | .empty .., _ => rfl
  | .block stmts _ _, f => hierarchyList_eq_pushAll above stmts f
  | .ifThen _ a _, f => hierarchy_eq_pushAll above a f
  | .ifElse _ a b _, f => by
      rw [hierarchy, hierarchyProblems, hierarchy_eq_pushAll above a,
        hierarchy_eq_pushAll above b, Findings.pushAll_append]
  | .forLoop header body _, f => by
      rw [hierarchy, hierarchyProblems]
      apply Findings.unlessClosed_eq_pushAll
      intro _
      rw [hierarchy_eq_pushAll (above.enter header) body, Findings.pushAll_append]
  | .whileLoop _ body _, f | .doWhile body _ _, f | .switch _ body _, f =>
      hierarchy_eq_pushAll above body f

/-- The same for several statements. -/
theorem hierarchyList_eq_pushAll (above : Above) :
    ∀ (stmts : List Stmt) (f : Findings),
      hierarchyList above stmts f = f.pushAll (hierarchyProblemsList above stmts)
  | [], _ => rfl
  | s :: rest, f => by
      rw [hierarchyList, hierarchyProblemsList, hierarchyList_eq_pushAll above rest,
        hierarchy_eq_pushAll above s, Findings.pushAll_append]

end

namespace Frontier

/-- The loops of one frontier, and after them those of another. -/
def append (a b : Frontier) : Frontier := ⟨a.inner ++ b.inner, a.outer ++ b.outer⟩

/-- Nothing comes behind a frontier. -/
@[simp] theorem append_empty (a : Frontier) : a.append empty = a := by
  simp [append, empty]

/-- Nothing comes in front of a frontier. -/
@[simp] theorem empty_append (a : Frontier) : empty.append a = a := by
  simp [append, empty]

/-- It does not matter which two of three frontiers are put together first. -/
theorem append_assoc (a b c : Frontier) : (a.append b).append c = a.append (b.append c) := by
  simp [append]

/-- A further loop comes last. -/
theorem add_eq_append (fr : Frontier) (h : LoopHeader) (depth : Nat) :
    fr.add h depth = fr.append (empty.add h depth) := by
  unfold add
  cases h.role <;> simp [append, empty]

end Frontier

mutual

/-- The attributed loops that a statement reaches, each with its depth. -/
def frontier : Stmt → Frontier
  | .expr .. | .decl .. | .caseLabel .. | .breakJump .. | .continueJump .. | .returnJump ..
  | .empty .. => .empty
  | .block stmts _ _ => frontierList stmts
  | .ifThen _ a _ => frontier a
  | .ifElse _ a b _ => (frontier a).append (frontier b)
  | .forLoop header body _ =>
    if header.role.isAttributed then Frontier.empty.add header (frontier body).innerDepth
    else frontier body
  | .whileLoop _ body _ | .doWhile body _ _ | .switch _ body _ => frontier body

/-- The attributed loops that several statements reach. -/
def frontierList : List Stmt → Frontier
  | [] => .empty
  | s :: rest => (frontier s).append (frontierList rest)

end

mutual

/-- The problems of the frontiers below the attributed loops of a statement; a
loop comes after those in its body. -/
def depthProblems : Stmt → List Problem
  | .expr .. | .decl .. | .caseLabel .. | .breakJump .. | .continueJump .. | .returnJump ..
  | .empty .. => []
  | .block stmts _ _ => depthProblemsList stmts
  | .ifThen _ a _ => depthProblems a
  | .ifElse _ a b _ => depthProblems a ++ depthProblems b
  | .forLoop header body _ =>
    depthProblems body ++ if header.role.isAttributed then (frontier body).problems else []
  | .whileLoop _ body _ | .doWhile body _ _ | .switch _ body _ => depthProblems body

/-- The same for several statements. -/
def depthProblemsList : List Stmt → List Problem
  | [] => []
  | s :: rest => depthProblems s ++ depthProblemsList rest

end

/-- What a traversal has to yield that starts with a frontier and findings: the
problems are pushed, and the loops are added unless that closed the findings. -/
structure Collected (fr : Frontier) (f : Findings) (reached : Frontier) (problems : List Problem)
    (result : Frontier × Findings) : Prop where
  findings : result.2 = f.pushAll problems
  frontier : result.2.isClosed = false → result.1 = fr.append reached

namespace Collected

variable {fr reached : Frontier} {f : Findings} {problems : List Problem}

/-- Nothing is reached and nothing is found. -/
theorem nothing (fr : Frontier) (f : Findings) : Collected fr f .empty [] (fr, f) :=
  ⟨rfl, fun _ => by simp⟩

/-- What is reached and found in two steps comes one after the other. -/
theorem trans {r r' : Frontier × Findings} {reached' : Frontier} {problems' : List Problem}
    (h : Collected fr f reached problems r)
    (h' : Collected r.1 r.2 reached' problems' r') :
    Collected fr f (reached.append reached') (problems ++ problems') r' := by
  refine ⟨by rw [h'.findings, h.findings, Findings.pushAll_append], ?_⟩
  intro hopen
  -- findings that are open at the end were open in between
  have hmid : r.2.isClosed = false := by
    cases hr : r.2.isClosed with
    | false => rfl
    | true =>
        have := Findings.isClosed_pushAll hr problems'
        rw [← h'.findings, hopen] at this
        cases this
  rw [h'.frontier hopen, h.frontier hmid, Frontier.append_assoc]

/-- An attributed loop is added when its body has been gone through. -/
theorem loop {body : Frontier × Findings} (header : LoopHeader) (fr : Frontier)
    (h : Collected .empty f reached problems body) :
    Collected fr f (Frontier.empty.add header reached.innerDepth) (problems ++ reached.problems)
      (fr.add header body.1.innerDepth, body.2.pushAll body.1.problems) := by
  cases hb : body.2.isClosed with
  | true =>
      refine ⟨?_, fun hopen => ?_⟩
      · rw [Findings.pushAll_append, ← h.findings, Findings.pushAll_of_isClosed hb,
          Findings.pushAll_of_isClosed hb]
      · rw [Findings.isClosed_pushAll hb] at hopen
        cases hopen
  | false =>
      have hbody : body.1 = reached := by rw [h.frontier hb, Frontier.empty_append]
      refine ⟨?_, fun _ => ?_⟩
      · rw [Findings.pushAll_append, ← h.findings, hbody]
      · rw [hbody, Frontier.add_eq_append]

end Collected

mutual

/-- **The traversal of a statement**, cut short or not, comes to its frontier
and its problems. -/
theorem collect_eq : ∀ (s : Stmt) (fr : Frontier) (f : Findings),
    Collected fr f (frontier s) (depthProblems s) (collect s fr f)
  | .expr .., fr, f | .decl .., fr, f | .caseLabel .., fr, f | .breakJump .., fr, f
  | .continueJump .., fr, f | .returnJump .., fr, f | .empty .., fr, f =>
      Collected.nothing fr f
  | .block stmts _ _, fr, f => collectList_eq stmts fr f
  | .ifThen _ a _, fr, f => collect_eq a fr f
  | .ifElse _ a b _, fr, f => (collect_eq a fr f).trans (collect_eq b _ _)
  | .forLoop header body _, fr, f => by
      rw [collect, frontier, depthProblems]
      by_cases hf : f.isClosed
      · refine ⟨?_, fun hopen => ?_⟩
        · rw [if_pos hf, Findings.pushAll_of_isClosed hf]
        · rw [if_pos hf, hf] at hopen
          cases hopen
      · by_cases hrole : header.role.isAttributed
        · simp only [hf, hrole, if_true]
          exact (collect_eq body .empty f).loop header fr
        · simp only [hf, hrole, if_false, Bool.false_eq_true, List.append_nil]
          exact collect_eq body fr f
  | .whileLoop _ body _, fr, f | .doWhile body _ _, fr, f | .switch _ body _, fr, f =>
      collect_eq body fr f

/-- The same for several statements. -/
theorem collectList_eq : ∀ (stmts : List Stmt) (fr : Frontier) (f : Findings),
    Collected fr f (frontierList stmts) (depthProblemsList stmts) (collectList stmts fr f)
  | [], fr, f => Collected.nothing fr f
  | s :: rest, fr, f => (collect_eq s fr f).trans (collectList_eq rest _ _)

end

/-- The problem with the loops that a kernel does not have. -/
def presenceProblems (kernel : Function) : List Problem :=
  ((missingLevel? kernel.loops).map (.missingLoops kernel.span kernel.name)).toList

/-- The test for missing loops appends at most one problem. -/
theorem presence_eq_pushAll (kernel : Function) (f : Findings) :
    presence kernel f = f.pushAll (presenceProblems kernel) := by
  unfold presence presenceProblems
  cases missingLevel? kernel.loops with
  | none => rfl
  | some missing => rfl

end Nesting

/-- The problems with how the loops of a kernel stand inside each other. -/
def Subject.nestingProblems (s : Subject) : List Problem :=
  Nesting.presenceProblems s.kernel ++
    (Nesting.hierarchyProblemsList .nothing s.kernel.body.stmts ++
      Nesting.depthProblemsList s.kernel.body.stmts)

/-- **The rules on nesting** append the problems with nesting. -/
theorem Stage.nesting_finds (s : Subject) : Stage.nesting.Finds s s.nestingProblems := by
  intro f
  have hhierarchy : ∀ f : Findings,
      f.unlessClosed (Nesting.hierarchyList .nothing s.kernel.body.stmts) =
        f.pushAll (Nesting.hierarchyProblemsList .nothing s.kernel.body.stmts) := by
    intro f
    exact Findings.unlessClosed_eq_pushAll fun _ => Nesting.hierarchyList_eq_pushAll _ _ f
  have hdepth : ∀ f : Findings,
      f.unlessClosed (Nesting.depth s.kernel.body.stmts) =
        f.pushAll (Nesting.depthProblemsList s.kernel.body.stmts) := by
    intro f
    exact Findings.unlessClosed_eq_pushAll fun _ =>
      (Nesting.collectList_eq s.kernel.body.stmts .empty f).findings
  unfold Stage.nesting Subject.nestingProblems
  simp only [Nesting.presence_eq_pushAll, hhierarchy, hdepth, Findings.pushAll_append]

end KernelCheck
