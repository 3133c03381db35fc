import KernelCheck.Rule.Findings

/-!
# Markers

The first family of rules.  A marker must be accepted where it stands, and a
node takes at most one built-in marker.  Custom markers that are accepted give no
role and do not count.

* `judgeMarkers` judges one list of markers, and yields the built-in marker or every
  problem with the list.
* `Stage.markers` judges the kernel and then each loop and declaration in it, in
  source order.
-/

namespace KernelCheck

/-- What is known after some markers of a list: the built-in marker that came
first, and the problems. -/
structure MarkerJudgement where
  first : Option Marker
  problems : List Problem

namespace MarkerJudgement

/-- Nothing is known before the first marker. -/
def start : MarkerJudgement := ⟨none, []⟩

/-- Judges one more marker.  A marker that is not accepted gives no role, so it
cannot be the first one either. -/
def step (r : Registry) (target : Target) (j : MarkerJudgement) (m : Marker) :
    MarkerJudgement :=
  if !r.accepts m.kind target then
    { j with problems := j.problems ++ [.unknownAttribute m.span m.kind target] }
  else if !m.kind.isBuiltin then j
  else
    match j.first with
    | none => { j with first := some m }
    | some first =>
      { j with problems := j.problems ++ [.duplicateAttribute m.span m.kind first.span] }

end MarkerJudgement

/-- Judges the markers of a node: the built-in marker if there is one, or every
problem. -/
def judgeMarkers (r : Registry) (target : Target) (markers : List Marker) :
    Except (List Problem) (Option MarkerKind) :=
  let j := markers.foldl (MarkerJudgement.step r target) .start
  if j.problems.isEmpty then .ok (j.first.map (·.kind)) else .error j.problems

/-- Judges the markers of a loop; its role if they are in order. -/
def LoopHeader.strictRole (h : LoopHeader) (r : Registry) : Except (List Problem) LoopRole :=
  (judgeMarkers r .loop h.markers).map fun kind => (kind.bind LoopRole.ofKind?).getD .plain

/-- Judges the markers of a declaration; its role if they are in order. -/
def Declaration.strictRole (d : Declaration) (r : Registry) : Except (List Problem) DeclRole :=
  (judgeMarkers r .declaration d.markers).map fun kind => (kind.bind DeclRole.ofKind?).getD .plain

/-- Judges the markers of a function; whether it is a kernel if they are in
order. -/
def Function.strictKernel (f : Function) (r : Registry) : Except (List Problem) Bool :=
  (judgeMarkers r .function f.markers).map (· == some .kernel)

/-- The problems of a judgement. -/
def problemsOf {α : Type} : Except (List Problem) α → List Problem
  | .ok _ => []
  | .error problems => problems

/-- A node inside a function that carries markers. -/
inductive MarkerSite where
  | loop (header : LoopHeader)
  | declaration (d : Declaration)

/-- The problems with the markers of a node. -/
def MarkerSite.problems (r : Registry) : MarkerSite → List Problem
  | loop header => problemsOf (header.strictRole r)
  | declaration d => problemsOf (d.strictRole r)

/-- The declaration in an init clause. -/
def LoopHeader.initSites (h : LoopHeader) : List MarkerSite :=
  match h.init with
  | some (.decl d) => [.declaration d]
  | _ => []

mutual

/-- The loops and declarations in a statement, in source order; a loop comes
before the declaration in its header. -/
def Stmt.markerSites : Stmt → List MarkerSite
  | .decl d _ => [.declaration d]
  | .expr .. | .caseLabel .. | .breakJump .. | .continueJump .. | .returnJump .. | .empty .. => []
  | .block stmts _ _ => Stmt.markerSitesList stmts
  | .ifThen _ a _ => a.markerSites
  | .ifElse _ a b _ => a.markerSites ++ b.markerSites
  | .forLoop header body _ => .loop header :: (header.initSites ++ body.markerSites)
  | .whileLoop _ body _ | .doWhile body _ _ | .switch _ body _ => body.markerSites

/-- The loops and declarations in several statements. -/
def Stmt.markerSitesList : List Stmt → List MarkerSite
  | [] => []
  | s :: rest => s.markerSites ++ Stmt.markerSitesList rest

end

/-- The rules on markers. -/
def Stage.markers : Stage := fun s f =>
  (Stmt.markerSitesList s.kernel.body.stmts).foldl
    (fun f site => f.unlessClosed (·.pushAll (site.problems s.registry)))
    (f.pushAll (problemsOf (s.kernel.strictKernel s.registry)))

end KernelCheck
