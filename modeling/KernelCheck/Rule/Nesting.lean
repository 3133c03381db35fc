import KernelCheck.Rule.Findings

/-!
# Nesting

The third family of rules, in three parts.

* *Presence.*  A kernel has an outer loop and an inner loop.
* *Hierarchy.*  No outer loop stands below an inner one, and no inner loop stands
  below no outer one.
* *Depth.*  The loops that a container loop reaches without entering another
  attributed loop are its *frontier*.  The inner loops of a frontier have all
  the same depth, which is one more than the depth of the deepest inner loop of
  their own frontier; and so have the outer loops of a frontier, which do not
  count themselves.  The loops at the top of a kernel are independent of each
  other.
-/

namespace KernelCheck

namespace Nesting

/-! ## Presence -/

/-- Which level of loops is missing among these. -/
def missingLevel? (headers : List LoopHeader) : Option MissingLevel :=
  match headers.any (·.role == .outer), headers.any (·.role == .inner) with
  | false, false => some .both
  | false, true => some .outer
  | true, false => some .inner
  | true, true => none

/-- A kernel has loops of both levels. -/
def presence (kernel : Function) (f : Findings) : Findings :=
  match missingLevel? kernel.loops with
  | some missing => f.push (.missingLoops kernel.span kernel.name missing)
  | none => f

/-! ## Hierarchy -/

/-- What matters of the loops around a statement: whether one is outer, and the
outermost inner one. -/
structure Above where
  hasOuter : Bool
  outermostInner : Option Span

/-- Nothing is above the top of a kernel. -/
def Above.nothing : Above := ⟨false, none⟩

/-- The loops around the body of a loop that stands below `above`. -/
def Above.enter (above : Above) (h : LoopHeader) : Above :=
  match h.role with
  | .outer => { above with hasOuter := true }
  | .inner => { above with outermostInner := above.outermostInner.or (some h.span) }
  | .plain => above

/-- The problem with a loop that stands below `above`. -/
def Above.problem? (above : Above) (h : LoopHeader) : Option Problem :=
  match h.role, above.outermostInner with
  | .outer, some innerSpan => some (.outerBelowInner h.span innerSpan)
  | .inner, none => if above.hasOuter then none else some (.innerOutsideOuter h.span)
  | _, _ => none

mutual

/-- The loops of a statement stand in the right order below each other. -/
def hierarchy (above : Above) : Stmt → Findings → Findings
  | .expr .., f | .decl .., f | .caseLabel .., f | .breakJump .., f | .continueJump .., f
  | .returnJump .., f | .empty .., f => f
  | .block stmts _ _, f => hierarchyList above stmts f
  | .ifThen _ a _, f => hierarchy above a f
  | .ifElse _ a b _, f => hierarchy above b (hierarchy above a f)
  | .forLoop header body _, f =>
    f.unlessClosed fun f =>
      hierarchy (above.enter header) body (f.pushAll (above.problem? header).toList)
  | .whileLoop _ body _, f | .doWhile body _ _, f | .switch _ body _, f => hierarchy above body f

/-- The same for several statements. -/
def hierarchyList (above : Above) : List Stmt → Findings → Findings
  | [], f => f
  | s :: rest, f => hierarchyList above rest (hierarchy above s f)

end

/-! ## Depth -/

/-- An attributed loop on a frontier with its depth. -/
structure FrontierLoop where
  span : Span
  depth : Nat

/-- The loops on a frontier, inner and outer ones apart, in source order. -/
structure Frontier where
  inner : List FrontierLoop
  outer : List FrontierLoop

namespace Frontier

/-- No loops. -/
def empty : Frontier := ⟨[], []⟩

/-- Adds a loop that holds `depth` levels of inner loops; an inner loop is one
level itself. -/
def add (fr : Frontier) (h : LoopHeader) (depth : Nat) : Frontier :=
  match h.role with
  | .inner => { fr with inner := fr.inner ++ [⟨h.span, depth + 1⟩] }
  | .outer => { fr with outer := fr.outer ++ [⟨h.span, depth⟩] }
  | .plain => fr

/-- The depth of the deepest inner loop; nothing is deep without one. -/
def innerDepth (fr : Frontier) : Nat := fr.inner.foldl (fun n l => max n l.depth) 0

end Frontier

/-- The first of several siblings says how deep they all have to be. -/
def siblingProblems : List FrontierLoop → List Problem
  | [] => []
  | first :: rest =>
    (rest.filter (·.depth != first.depth)).map fun l =>
      .unevenDepth l.span l.depth first.depth first.span

/-- The problems of a frontier, inner loops first. -/
def Frontier.problems (fr : Frontier) : List Problem :=
  siblingProblems fr.inner ++ siblingProblems fr.outer

mutual

/-- Adds the loops that a statement reaches to a frontier, and judges the
frontier of each of them. -/
def collect : Stmt → Frontier → Findings → Frontier × Findings
  | .expr .., fr, f | .decl .., fr, f | .caseLabel .., fr, f | .breakJump .., fr, f
  | .continueJump .., fr, f | .returnJump .., fr, f | .empty .., fr, f => (fr, f)
  | .block stmts _ _, fr, f => collectList stmts fr f
  | .ifThen _ a _, fr, f => collect a fr f
  | .ifElse _ a b _, fr, f =>
    let (fr, f) := collect a fr f
    collect b fr f
  | .forLoop header body _, fr, f =>
    if f.isClosed then (fr, f)
    else if header.role.isAttributed then
      let (below, f) := collect body .empty f
      (fr.add header below.innerDepth, f.pushAll below.problems)
    else collect body fr f
  | .whileLoop _ body _, fr, f | .doWhile body _ _, fr, f | .switch _ body _, fr, f =>
    collect body fr f

/-- The same for several statements. -/
def collectList : List Stmt → Frontier → Findings → Frontier × Findings
  | [], fr, f => (fr, f)
  | s :: rest, fr, f =>
    let (fr, f) := collect s fr f
    collectList rest fr f

end

/-- Judges every frontier below the top of a kernel. -/
def depth (stmts : List Stmt) (f : Findings) : Findings := (collectList stmts .empty f).2

end Nesting

/-- The rules on how loops stand inside each other. -/
def Stage.nesting : Stage := fun s f =>
  let stmts := s.kernel.body.stmts
  ((Nesting.presence s.kernel f).unlessClosed (Nesting.hierarchyList .nothing stmts)).unlessClosed
    (Nesting.depth stmts)

end KernelCheck
