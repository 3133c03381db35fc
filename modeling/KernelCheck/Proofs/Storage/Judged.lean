import KernelCheck.Proofs.Findings
import KernelCheck.Rule.Storage

/-!
# What the rules on shared and exclusive variables find

The traversal of a kernel carries a scope and the findings along, and stops
early when the findings are closed.  Here the two are taken apart.

* `Storage.after` — the scope behind a statement.
* `Storage.judged` — the declarations that are met in a statement, each with the
  scope that it is judged in.  Its problems depend on nothing else.
* `Storage.stmt_eq` — the traversal comes to this scope, unless it was cut short,
  and to the problems of these declarations.
* `Stage.storage_finds` — so does the whole stage.
-/

namespace KernelCheck

namespace Storage

/-- The problems with a declaration that is judged in a scope. -/
def declarationProblems (s : Scope) (d : Declaration) : List Problem :=
  (roleProblem? s d).toList ++ if d.role = .shared then boundProblems s d else []

/-- The problems with several declarations, each judged in its own scope. -/
def problemsOfJudged (js : List (Scope × Declaration)) : List Problem :=
  js.flatMap fun (s, d) => declarationProblems s d

/-- The problems of two lists of judgements are those of the first and then those of the
second. -/
theorem problemsOfJudged_append (js ks : List (Scope × Declaration)) :
    problemsOfJudged (js ++ ks) = problemsOfJudged js ++ problemsOfJudged ks :=
  List.flatMap_append

/-- The scope around a loop: behind the declaration in its header. -/
def aroundLoop (init : Option ForInit) (s : Scope) : Scope :=
  match init with
  | some (.decl d) => s.declare d.declarators
  | _ => s

/-- The scope at the start of the body of a loop, from the scope around the loop. -/
def insideLoop (header : LoopHeader) (around : Scope) : Scope :=
  (around.enter header.role header.span).bindAll (inductionNames header.init) true

/-- The declaration in a loop header, judged outside the loop. -/
def judgedInit (init : Option ForInit) (s : Scope) : List (Scope × Declaration) :=
  match init with
  | some (.decl d) => [(s, d)]
  | _ => []

mutual

/-- The scope behind a statement. -/
def after : Stmt → Scope → Scope
  | .decl d _, s => s.declare d.declarators
  | .expr e _, s => Scope.assigned e s
  | .block stmts _ _, s => (afterList stmts s).leave s
  | .forLoop header body _, s =>
    let around := aroundLoop header.init s
    ((after body (insideLoop header around)).leave around).leave s
  | .whileLoop _ body span, s | .doWhile body _ span, s =>
    (after body (s.enter .plain span)).leave s
  | .ifThen _ a _, s | .switch _ a _, s => (after a s).leave s
  | .ifElse _ a b _, s => (after b ((after a s).leave s)).leave s
  | .caseLabel .., s | .breakJump .., s | .continueJump .., s | .returnJump .., s
  | .empty .., s => s

/-- The scope behind several statements. -/
def afterList : List Stmt → Scope → Scope
  | [], s => s
  | st :: rest, s => afterList rest (after st s)

end

mutual

/-- The declarations in a statement, each with the scope that it is judged in. -/
def judged : Stmt → Scope → List (Scope × Declaration)
  | .decl d _, s => [(s, d)]
  | .block stmts _ _, s => judgedList stmts s
  | .forLoop header body _, s =>
    judgedInit header.init s ++ judged body (insideLoop header (aroundLoop header.init s))
  | .whileLoop _ body span, s | .doWhile body _ span, s => judged body (s.enter .plain span)
  | .ifThen _ a _, s | .switch _ a _, s => judged a s
  | .ifElse _ a b _, s => judged a s ++ judged b ((after a s).leave s)
  | .expr .., _ | .caseLabel .., _ | .breakJump .., _ | .continueJump .., _ | .returnJump .., _
  | .empty .., _ => []

/-- The declarations in several statements. -/
def judgedList : List Stmt → Scope → List (Scope × Declaration)
  | [], _ => []
  | st :: rest, s => judged st s ++ judgedList rest (after st s)

end

/-- What a traversal has to yield that starts with findings: the problems of the
declarations that it meets are pushed, and it ends in the given scope unless
that closed the findings. -/
structure Traversed (f : Findings) (s : Scope) (js : List (Scope × Declaration))
    (result : Scope × Findings) : Prop where
  findings : result.2 = f.pushAll (problemsOfJudged js)
  scope : result.2.isClosed = false → result.1 = s

namespace Traversed

variable {f : Findings} {s : Scope} {js : List (Scope × Declaration)} {r : Scope × Findings}

/-- Where nothing is done, nothing is judged. -/
theorem nothing (s : Scope) (f : Findings) : Traversed f s [] (s, f) := ⟨rfl, fun _ => rfl⟩

/-- Two traversals, the second of which goes on where the first has ended.  If
the first was cut short, then the second starts from a scope that means
nothing, but its findings are closed and it pushes nothing. -/
theorem trans (scopeAfter : Scope → Scope) (judgedAfter : Scope → List (Scope × Declaration))
    {r' : Scope × Findings} (h : Traversed f s js r)
    (h' : Traversed r.2 (scopeAfter r.1) (judgedAfter r.1) r') :
    Traversed f (scopeAfter s) (js ++ judgedAfter s) r' := by
  cases hr : r.2.isClosed with
  | true =>
      have hr' : r'.2 = r.2 := by rw [h'.findings, Findings.pushAll_of_isClosed hr]
      refine ⟨?_, fun hopen => ?_⟩
      · rw [problemsOfJudged_append, Findings.pushAll_append, ← h.findings,
          Findings.pushAll_of_isClosed hr, hr']
      · rw [hr', hr] at hopen
        cases hopen
  | false =>
      rw [h.scope hr] at h'
      refine ⟨?_, h'.scope⟩
      rw [h'.findings, h.findings, problemsOfJudged_append, Findings.pushAll_append]

/-- Leaving a scope judges nothing. -/
theorem leave (h : Traversed f s js r) (outer : Scope) :
    Traversed f (s.leave outer) js (r.1.leave outer, r.2) := by
  refine ⟨h.findings, fun hopen => ?_⟩
  rw [h.scope hopen]

end Traversed

/-- A declaration is judged in the scope it stands in, and binds its names there. -/
theorem declaration_eq (d : Declaration) (s : Scope) (f : Findings) :
    Traversed f (s.declare d.declarators) [(s, d)] (declaration d s f) := by
  refine ⟨?_, fun _ => rfl⟩
  unfold declaration problemsOfJudged declarationProblems
  by_cases hrole : d.role = .shared
  · simp [hrole, Findings.pushAll_append]
  · simp [hrole]

/-- An init clause leaves the scope around the loop, and judges the declaration it holds. -/
theorem initClause_eq (init : Option ForInit) (s : Scope) (f : Findings) :
    Traversed f (aroundLoop init s) (judgedInit init s) (initClause init s f) := by
  match init with
  | some (.decl d) => exact declaration_eq d s f
  | some (.expr _) => exact Traversed.nothing s f
  | none => exact Traversed.nothing s f

mutual

/-- **The traversal of a statement**, cut short or not, comes to the problems of
the declarations in it. -/
theorem stmt_eq : ∀ (st : Stmt) (s : Scope) (f : Findings),
    Traversed f (after st s) (judged st s) (stmt st s f)
  | .decl d _, s, f => declaration_eq d s f
  | .expr e _, s, f => Traversed.nothing (Scope.assigned e s) f
  | .block stmts _ _, s, f => (stmtList_eq stmts s f).leave s
  | .forLoop header body _, s, f => by
      have hbody := fun (around : Scope) (f : Findings) =>
        ((stmt_eq body (insideLoop header around) f).leave around).leave s
      exact (initClause_eq header.init s f).trans
        (fun around => ((after body (insideLoop header around)).leave around).leave s)
        (fun around => judged body (insideLoop header around)) (hbody _ _)
  | .whileLoop _ body span, s, f | .doWhile body _ span, s, f =>
      (stmt_eq body (s.enter .plain span) f).leave s
  | .ifThen _ a _, s, f | .switch _ a _, s, f => (stmt_eq a s f).leave s
  | .ifElse _ a b _, s, f =>
      ((stmt_eq a s f).leave s).trans (fun inside => (after b inside).leave s) (judged b)
        ((stmt_eq b _ _).leave s)
  | .caseLabel .., s, f | .breakJump .., s, f | .continueJump .., s, f | .returnJump .., s, f
  | .empty .., s, f => Traversed.nothing s f

/-- The same for a list of statements. -/
theorem stmtList_eq : ∀ (stmts : List Stmt) (s : Scope) (f : Findings),
    Traversed f (afterList stmts s) (judgedList stmts s) (stmtList stmts s f)
  | [], s, f => Traversed.nothing s f
  | st :: rest, s, f => by
      rw [stmtList]
      by_cases hf : f.isClosed
      · rw [if_pos hf]
        refine ⟨(Findings.pushAll_of_isClosed hf _).symm, fun hopen => ?_⟩
        rw [hf] at hopen
        cases hopen
      · rw [if_neg hf]
        exact (stmt_eq st s f).trans (afterList rest) (judgedList rest) (stmtList_eq rest _ _)

end

end Storage

/-- The declarations of a kernel, each with the scope that it is judged in. -/
def Function.judged (kernel : Function) : List (Scope × Declaration) :=
  Storage.judgedList kernel.body.stmts (Storage.atStart kernel)

/-- The problems with the shared and exclusive declarations of a kernel. -/
def Function.storageProblems (kernel : Function) : List Problem :=
  Storage.problemsOfJudged kernel.judged

/-- The stage appends the problems of the kernel's judgements, in order, to whatever was found
before. -/
theorem Stage.storage_finds (s : Subject) : Stage.storage.Finds s s.kernel.storageProblems := by
  intro f
  exact (Storage.stmtList_eq s.kernel.body.stmts (Storage.atStart s.kernel) f).findings

end KernelCheck
