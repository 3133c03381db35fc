import KernelCheck.Proofs.Extent
import KernelCheck.Proofs.Nesting.Soundness
import KernelCheck.Proofs.Relabelling.Families
import KernelCheck.Proofs.Storage.Scopes

/-!
# Statements that no rule objects to

The rules look at markers, so a statement without markers should break none of them, wherever
it stands.  Jumps are the exception: what a `break` may not end is marked further out.

1. `Stmt.Tidy` says for each family of rules but the one on jumps that it finds nothing in a
   statement that stands below an outer loop, as long as the loops around it satisfy a
   condition.
2. It is put together along the statement: a list of tidy statements is tidy
   (`Stmt.tidy_block`), and so is a loop around one, if its own header and its frontier are
   in order (`Stmt.tidy_forLoop`).
3. `Stmt.Unmarked.tidy` concludes that statements without markers are tidy and reach no loop
   of the grid.
-/

namespace KernelCheck

/-! ## Nodes without markers -/

/-- A loop without markers is plain. -/
theorem LoopHeader.role_of_unmarked {h : LoopHeader} (hm : h.markers = []) : h.role = .plain := by
  rw [role, hm]
  rfl

/-- A declaration without markers is plain. -/
theorem Declaration.role_of_unmarked {d : Declaration} (hm : d.markers = []) :
    d.role = .plain := by
  rw [role, hm]
  rfl

/-- Where there are no markers there are no problems with them. -/
theorem MarkerSite.problems_of_unmarked {site : MarkerSite} (hm : site.markers = [])
    (r : Registry) : site.problems r = [] := by
  rw [problems_eq, hm]
  rfl

/-- One marker that is accepted where it stands is in order. -/
theorem problemsOf_judgeMarkers_singleton {r : Registry} {target : Target} {m : Marker}
    (hm : r.accepts m.kind target = true) : problemsOf (judgeMarkers r target [m]) = [] := by
  have hstep : (MarkerJudgement.start.step r target m).problems = [] := by
    unfold MarkerJudgement.step
    rw [hm]
    cases m.kind.isBuiltin <;> rfl
  rw [judgeMarkers, List.foldl_cons, List.foldl_nil, hstep]
  rfl

/-- The header of a plain loop is not judged. -/
theorem LoopHeader.shapeProblems_of_plain {h : LoopHeader} (hr : h.role = .plain) (t : Interner) :
    h.shapeProblems t = [] := by
  rw [shapeProblems, hr]
  rfl

/-- A plain declaration is not judged. -/
theorem Storage.declarationProblems_of_plain {d : Declaration} (hr : d.role = .plain)
    (s : Scope) : declarationProblems s d = [] := by
  have hplace : roleProblem? s d = none := by
    unfold roleProblem?
    rw [hr]
    cases d.declarators <;> rfl
  rw [declarationProblems, hplace, hr]
  rfl

/-- The declaration in an unmarked init clause is judged without a problem. -/
theorem Storage.problemsOfJudged_init {header : LoopHeader}
    (h : ∀ site ∈ header.initSites, site.markers = []) (s : Scope) :
    problemsOfJudged (judgedInit header.init s) = [] := by
  rw [LoopHeader.initSites] at h
  cases hinit : header.init with
  | none => rfl
  | some init =>
      rw [hinit] at h
      cases init with
      | expr e => rfl
      | decl d =>
          have hplain : d.role = .plain :=
            Declaration.role_of_unmarked (h (.declaration d) List.mem_cons_self)
          rw [judgedInit, problemsOfJudged, List.flatMap_singleton]
          exact declarationProblems_of_plain hplain s

namespace Stmt

/-! ## Tidy statements -/

/-- What the rules find in a statement below an outer loop, jumps apart: nothing.  The place
of a declaration is judged by the loops around it, of which `Around` is known. -/
structure Tidy (Around : List Frame → Prop) (s : Stmt) : Prop where
  markers : ∀ r : Registry, s.markerSites.flatMap (·.problems r) = []
  headers : ∀ t : Interner, s.loops.flatMap (·.shapeProblems t) = []
  hierarchy : ∀ above : Nesting.Above, above.hasOuter = true →
    Nesting.hierarchyProblems above s = []
  depth : Nesting.depthProblems s = []
  storage : ∀ scope : Scope, Around scope.frames →
    Storage.problemsOfJudged (Storage.judged s scope) = []

/-- Any loops. -/
def Anywhere : List Frame → Prop := fun _ => True

variable {Around Around' : List Frame → Prop}

/-- What is tidy in many surroundings is tidy in fewer. -/
theorem Tidy.mono {s : Stmt} (h : s.Tidy Around) (himp : ∀ fs, Around' fs → Around fs) :
    s.Tidy Around' :=
  { h with storage := fun scope hscope => h.storage scope (himp _ hscope) }

/-- The places for markers in several statements, one statement after the other. -/
theorem markerSitesList_eq_flatMap (stmts : List Stmt) :
    markerSitesList stmts = stmts.flatMap markerSites := by
  induction stmts with
  | nil => rfl
  | cons s rest ih => rw [markerSitesList, ih, List.flatMap_cons]

/-- Statements in which nothing is found, one after the other: the loops around them stay. -/
theorem problemsOfJudged_list {stmts : List Stmt}
    (h : ∀ s ∈ stmts, ∀ scope : Scope, Around scope.frames →
      Storage.problemsOfJudged (Storage.judged s scope) = [])
    {scope : Scope} (hscope : Around scope.frames) :
    Storage.problemsOfJudged (Storage.judgedList stmts scope) = [] := by
  induction stmts generalizing scope with
  | nil => rfl
  | cons s rest ih =>
      have hafter : Around (Storage.after s scope).frames := by
        rw [Storage.frames_after]
        exact hscope
      rw [Storage.judgedList, Storage.problemsOfJudged_append,
        h s List.mem_cons_self scope hscope,
        ih (fun s hs => h s (List.mem_cons_of_mem _ hs)) hafter]
      rfl

/-- A block of tidy statements is tidy. -/
theorem tidy_block {stmts : List Stmt} (h : ∀ s ∈ stmts, s.Tidy Around) (blockSpan span : Span) :
    (block stmts blockSpan span).Tidy Around := by
  constructor
  case markers =>
    intro r
    rw [markerSites, markerSitesList_eq_flatMap, List.flatMap_assoc, List.flatMap_eq_nil_iff]
    exact fun s hs => (h s hs).markers r
  case headers =>
    intro t
    rw [loops, loopsList_eq_flatMap, List.flatMap_assoc, List.flatMap_eq_nil_iff]
    exact fun s hs => (h s hs).headers t
  case hierarchy =>
    intro above habove
    rw [Nesting.hierarchyProblems, Nesting.hierarchyProblemsList_eq_flatMap,
      List.flatMap_eq_nil_iff]
    exact fun s hs => (h s hs).hierarchy above habove
  case depth =>
    rw [Nesting.depthProblems, Nesting.depthProblemsList_eq_flatMap, List.flatMap_eq_nil_iff]
    exact fun s hs => (h s hs).depth
  case storage => exact fun scope => problemsOfJudged_list fun s hs => (h s hs).storage

/-- A loop that is not outer, around a tidy body. -/
theorem tidy_forLoop {header : LoopHeader} {body : Stmt} (hbody : body.Tidy Anywhere) (span : Span)
    (hmarkers : ∀ r, (MarkerSite.loop header).problems r = [])
    (hinit : ∀ site ∈ header.initSites, site.markers = [])
    (hshape : ∀ t, header.shapeProblems t = []) (hrole : header.role ≠ .outer)
    (hfrontier : header.role.isAttributed = true → (Nesting.frontier body).problems = []) :
    (forLoop header body span).Tidy Anywhere := by
  constructor
  case markers =>
    intro r
    have hsites : header.initSites.flatMap (·.problems r) = [] := by
      rw [List.flatMap_eq_nil_iff]
      exact fun site hsite => site.problems_of_unmarked (hinit site hsite) r
    rw [markerSites, List.flatMap_cons, List.flatMap_append, hmarkers, hsites, hbody.markers]
    rfl
  case headers =>
    intro t
    rw [loops, List.flatMap_cons, hshape, hbody.headers]
    rfl
  case hierarchy =>
    intro above habove
    have hloop : above.problem? header = none := by
      unfold Nesting.Above.problem?
      cases hr : header.role with
      | plain => rfl
      | outer => exact absurd hr hrole
      | inner => cases above.outermostInner <;> simp [habove]
    have henter : (above.enter header).hasOuter = true := by
      unfold Nesting.Above.enter
      cases header.role <;> simp [habove]
    rw [Nesting.hierarchyProblems, hloop, hbody.hierarchy _ henter]
    rfl
  case depth =>
    rw [Nesting.depthProblems, hbody.depth]
    by_cases hr : header.role.isAttributed
    · rw [if_pos hr, hfrontier hr, List.append_nil]
    · rw [if_neg hr, List.append_nil]
  case storage =>
    intro scope _
    rw [Storage.judged, Storage.problemsOfJudged_append, hbody.storage _ trivial,
      Storage.problemsOfJudged_init hinit, List.append_nil]

/-! ## Statements without markers -/

/-- No loop and no declaration in the statement carries a marker. -/
def Unmarked (s : Stmt) : Prop := ∀ site ∈ s.markerSites, site.markers = []

/-- A list of statements that reach no loop of the grid. -/
theorem frontierList_eq_empty {stmts : List Stmt}
    (h : ∀ s ∈ stmts, Nesting.frontier s = .empty) : Nesting.frontierList stmts = .empty := by
  induction stmts with
  | nil => rfl
  | cons s rest ih =>
      rw [Nesting.frontierList, h s List.mem_cons_self,
        ih fun s hs => h s (List.mem_cons_of_mem _ hs), Nesting.Frontier.append_empty]

mutual

/-- **Statements without markers** break no rule, jumps apart, and reach no loop of the grid. -/
theorem Unmarked.tidy : ∀ {s : Stmt}, s.Unmarked →
    s.Tidy Anywhere ∧ Nesting.frontier s = .empty
  | .expr .., _ | .caseLabel .., _ | .breakJump .., _ | .continueJump .., _ | .returnJump .., _
  | .empty .., _ =>
      ⟨⟨fun _ => rfl, fun _ => rfl, fun _ _ => rfl, rfl, fun _ _ => rfl⟩, rfl⟩
  | .decl d _, h => by
      have hd : d.markers = [] := h (.declaration d) List.mem_cons_self
      have hsite : ∀ r, (MarkerSite.declaration d).problems r = [] :=
        MarkerSite.problems_of_unmarked hd
      refine ⟨⟨fun r => ?_, fun _ => rfl, fun _ _ => rfl, rfl, fun scope _ => ?_⟩, rfl⟩
      · rw [markerSites, List.flatMap_singleton, hsite]
      · rw [Storage.judged, Storage.problemsOfJudged, List.flatMap_singleton]
        exact Storage.declarationProblems_of_plain (Declaration.role_of_unmarked hd) scope
  | .block stmts blockSpan span, h => by
      have hall := unmarkedList_tidy h
      exact ⟨tidy_block (fun s hs => (hall s hs).1) blockSpan span,
        frontierList_eq_empty fun s hs => (hall s hs).2⟩
  | .ifThen _ a _, h =>
      have ha : a.Unmarked := h
      have ⟨⟨hm, hh, ho, hd, hs⟩, hf⟩ := ha.tidy
      ⟨⟨hm, hh, ho, hd, hs⟩, hf⟩
  | .ifElse _ a b _, h => by
      have ha : a.Unmarked := fun site hsite => h site (List.mem_append_left _ hsite)
      have hb : b.Unmarked := fun site hsite => h site (List.mem_append_right _ hsite)
      obtain ⟨hta, hfa⟩ := ha.tidy
      obtain ⟨htb, hfb⟩ := hb.tidy
      refine ⟨⟨fun r => ?_, fun t => ?_, fun above habove => ?_, ?_, fun scope _ => ?_⟩, ?_⟩
      · rw [markerSites, List.flatMap_append, hta.markers, htb.markers, List.append_nil]
      · rw [loops, List.flatMap_append, hta.headers, htb.headers, List.append_nil]
      · rw [Nesting.hierarchyProblems, hta.hierarchy above habove, htb.hierarchy above habove,
          List.append_nil]
      · rw [Nesting.depthProblems, hta.depth, htb.depth, List.append_nil]
      · rw [Storage.judged, Storage.problemsOfJudged_append, hta.storage _ trivial,
          htb.storage _ trivial, List.append_nil]
      · rw [Nesting.frontier, hfa, hfb, Nesting.Frontier.append_empty]
  | .forLoop header body span, h => by
      have hheader : header.markers = [] := h (.loop header) List.mem_cons_self
      have hrole := LoopHeader.role_of_unmarked hheader
      have hinit : ∀ site ∈ header.initSites, site.markers = [] := fun site hsite =>
        h site (List.mem_cons_of_mem _ (List.mem_append_left _ hsite))
      have hbody : body.Unmarked := fun site hsite =>
        h site (List.mem_cons_of_mem _ (List.mem_append_right _ hsite))
      obtain ⟨htidy, hfrontier⟩ := hbody.tidy
      refine ⟨tidy_forLoop htidy span (MarkerSite.problems_of_unmarked hheader) hinit
        (LoopHeader.shapeProblems_of_plain hrole) (by simp [hrole]) ?_, ?_⟩
      · intro hattributed
        rw [hrole] at hattributed
        cases hattributed
      · rw [Nesting.frontier, hrole]
        exact hfrontier
  | .whileLoop _ body span, h | .doWhile body _ span, h =>
      have hbody : body.Unmarked := h
      have ⟨⟨hm, hh, ho, hd, hs⟩, hf⟩ := hbody.tidy
      ⟨⟨hm, hh, ho, hd, fun scope => hs (scope.enter .plain span)⟩, hf⟩
  | .switch _ body _, h =>
      have hbody : body.Unmarked := h
      have ⟨⟨hm, hh, ho, hd, hs⟩, hf⟩ := hbody.tidy
      ⟨⟨hm, hh, ho, hd, hs⟩, hf⟩

/-- The same for several statements. -/
theorem unmarkedList_tidy : ∀ {stmts : List Stmt},
    (∀ site ∈ markerSitesList stmts, site.markers = []) →
      ∀ s ∈ stmts, s.Tidy Anywhere ∧ Nesting.frontier s = .empty
  | [], _ => fun _ hs => nomatch hs
  | first :: rest, h => by
      have hfirst : first.Unmarked := fun site hsite => h site (List.mem_append_left _ hsite)
      have htidy := hfirst.tidy
      have hrest := unmarkedList_tidy fun site hsite => h site (List.mem_append_right _ hsite)
      intro s hs
      rcases List.mem_cons.mp hs with rfl | hs
      · exact htidy
      · exact hrest s hs

end

end Stmt

end KernelCheck
