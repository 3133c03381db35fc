import KernelCheck.Proofs.Relabelling.Verdict
import KernelCheck.Syntax.Builder
import Mathlib.Data.List.Nodup

/-!
# No violation twice

A traversal that met a node twice would report it twice.  None does, and this is
shown by counting: at each span there are no more problems with one code than
there are nodes at that span.

1. `Once` is this property for a list of problems and a list of spans.  It is kept
   when lists are put together, and when the problems have different codes they
   may share their spans.
2. Each family is gone through once.  The only delicate one is depth: a loop is
   judged with the frontier that it stands on, which is not where it is met
   (`Nesting.once_depthProblems`).
3. The families have different codes (`Function.once_problems`).

`problems_distinct` concludes that no two problems have the same code and span if
no two nodes have the same span, and that every span in a problem is that of a node.
-/

namespace KernelCheck

/-! ## Places -/

/-- The place of a node.  That of a statement around a declaration, a block or a
loop is none, since what the statement holds has a place of its own. -/
def Atom.place? : Atom → Option Span
  | .place s => some s
  | _ => none

/-- The places among some atoms. -/
def places (as : List Atom) : List Span := as.filterMap (·.place?)

/-- The places of two lists, one after the other. -/
@[simp] theorem places_append (as bs : List Atom) : places (as ++ bs) = places as ++ places bs :=
  List.filterMap_append

/-- A place comes first. -/
@[simp] theorem places_cons_place (s : Span) (as : List Atom) :
    places (.place s :: as) = s :: places as := rfl

/-- The span of a wrapper is no place. -/
@[simp] theorem places_cons_wrapper (s : Span) (as : List Atom) :
    places (.wrapper s :: as) = places as := rfl

/-- A variable has no place of its own. -/
@[simp] theorem places_cons_var (n : Name) (as : List Atom) :
    places (.var n :: as) = places as := rfl

/-- The name of a function has no place of its own. -/
@[simp] theorem places_cons_function (n : Name) (as : List Atom) :
    places (.function n :: as) = places as := rfl

/-- Fewer nodes have fewer places. -/
theorem places_sublist {as bs : List Atom} (h : as.Sublist bs) :
    (places as).Sublist (places bs) := h.filterMap _

/-- The places are the spans of the nodes that have one. -/
theorem mem_places {as : List Atom} {s : Span} : s ∈ places as ↔ .place s ∈ as := by
  rw [places, List.mem_filterMap]
  constructor
  · rintro ⟨a, ha, hplace⟩
    cases a <;> cases hplace
    exact ha
  · intro h
    exact ⟨.place s, h, rfl⟩

/-- The spans of all nodes of a function. -/
def Function.spans (f : Function) : List Span := places f.atoms

/-! ## Counting problems -/

/-- What a problem is known by. -/
def Problem.key (p : Problem) : Code × Span := (p.code, p.span)

/-- The problems have some of these codes, and no span has more problems with one
code than it occurs. -/
structure Once (codes : List Code) (spans : List Span) (ps : List Problem) : Prop where
  code : ∀ p ∈ ps, p.code ∈ codes
  count : ∀ c x, (ps.map (·.key)).count (c, x) ≤ spans.count x

namespace Once

variable {codes codes' : List Code} {xs ys : List Span} {ps qs : List Problem}

/-- No problems. -/
theorem nil : Once codes xs [] := by
  constructor
  · simp
  · simp

/-- One problem at one of the spans. -/
theorem single {p : Problem} (hcode : p.code ∈ codes) (hspan : p.span ∈ xs) :
    Once codes xs [p] := by
  constructor
  · simpa using hcode
  · intro c x
    rw [List.map_singleton, List.count_singleton]
    split
    case isTrue heq =>
      have hx : p.span = x := (Prod.mk.inj (beq_iff_eq.mp heq)).2
      exact List.count_pos_iff.mpr (hx ▸ hspan)
    case isFalse => omega

/-- At most one problem, at one of the spans. -/
theorem toList {p : Option Problem} (h : ∀ q, p = some q → q.code ∈ codes ∧ q.span ∈ xs) :
    Once codes xs p.toList := by
  cases p with
  | none => exact nil
  | some q => exact single (h q rfl).1 (h q rfl).2

/-- Problems at different spans. -/
theorem of_spans (hcode : ∀ p ∈ ps, p.code ∈ codes)
    (hspans : (ps.map (·.span)).Sublist xs) : Once codes xs ps := by
  refine ⟨hcode, fun c x => ?_⟩
  have hkeys : (ps.map (·.key)).map Prod.snd = ps.map (·.span) := List.map_map
  have hcount : (ps.map (·.key)).count (c, x) ≤
      ((ps.map (·.key)).map Prod.snd).count (Prod.snd (c, x)) := List.count_le_count_map
  rw [hkeys] at hcount
  exact hcount.trans (hspans.count_le x)

/-- The problems of two parts of a kernel. -/
theorem append (hp : Once codes xs ps) (hq : Once codes ys qs) :
    Once codes (xs ++ ys) (ps ++ qs) := by
  constructor
  · intro p hmem
    rcases List.mem_append.mp hmem with hmem | hmem
    · exact hp.code p hmem
    · exact hq.code p hmem
  · intro c x
    have hps := hp.count c x
    have hqs := hq.count c x
    rw [List.map_append, List.count_append, List.count_append]
    omega

/-- More spans leave room for the same problems. -/
theorem mono (h : Once codes xs ps) (hsub : xs.Sublist ys) : Once codes ys ps :=
  ⟨h.code, fun c x => (h.count c x).trans (hsub.count_le x)⟩

/-- The problems of many parts of a kernel. -/
theorem flatMap {α : Type} (as : List α) {f : α → List Problem} {g : α → List Span}
    (h : ∀ a ∈ as, Once codes (g a) (f a)) : Once codes (as.flatMap g) (as.flatMap f) := by
  induction as with
  | nil => exact nil
  | cons a rest ih =>
      rw [List.flatMap_cons, List.flatMap_cons]
      exact (h a List.mem_cons_self).append (ih fun b hb => h b (List.mem_cons_of_mem _ hb))

/-- A key with another code is not among these. -/
theorem count_eq_zero (h : Once codes xs ps) {c : Code} (hc : c ∉ codes) (x : Span) :
    (ps.map (·.key)).count (c, x) = 0 := by
  rw [List.count_eq_zero]
  intro hmem
  obtain ⟨p, hp, hkey⟩ := List.mem_map.mp hmem
  have hcode : p.code = c := (Prod.mk.inj hkey).1
  exact hc (hcode ▸ h.code p hp)

/-- Problems with different codes may be at the same spans. -/
theorem join (hp : Once codes xs ps) (hq : Once codes' xs qs)
    (hcodes : ∀ c ∈ codes, c ∉ codes') : Once (codes ++ codes') xs (ps ++ qs) := by
  constructor
  · intro p hmem
    rcases List.mem_append.mp hmem with hmem | hmem
    · exact List.mem_append_left _ (hp.code p hmem)
    · exact List.mem_append_right _ (hq.code p hmem)
  · intro c x
    rw [List.map_append, List.count_append]
    -- one of the two lists has no problem with this code
    by_cases hc : c ∈ codes
    · rw [hq.count_eq_zero (hcodes c hc) x]
      exact hp.count c x
    · rw [hp.count_eq_zero hc x, Nat.zero_add]
      exact hq.count c x

/-- If no span occurs twice, no code and span do. -/
theorem keys_nodup (h : Once codes xs ps) (hxs : xs.Nodup) : (ps.map (·.key)).Nodup := by
  rw [List.nodup_iff_count_le_one]
  rintro ⟨c, x⟩
  exact (h.count c x).trans (List.nodup_iff_count_le_one.mp hxs x)

end Once

/-! ## Markers -/

/-- Each marker of a node has at most one problem. -/
theorem problemsOf_judgeMarkers_once (r : Registry) (target : Target) (markers : List Marker) :
    Once [.unknownAttribute, .duplicateAttribute] (places (markers.flatMap (·.atoms)))
      (problemsOf (judgeMarkers r target markers)) := by
  have hstep : ∀ (j : MarkerJudgement) (m : Marker), ∃ ps,
      (j.step r target m).problems = j.problems ++ ps ∧
        Once [.unknownAttribute, .duplicateAttribute] (places m.atoms) ps := by
    intro j m
    unfold MarkerJudgement.step
    split
    · exact ⟨_, rfl, .single (by simp [Problem.code]) (by simp [Marker.atoms, Problem.span])⟩
    · split
      · exact ⟨[], by simp, .nil⟩
      · split
        · exact ⟨[], by simp, .nil⟩
        · exact ⟨_, rfl, .single (by simp [Problem.code]) (by simp [Marker.atoms, Problem.span])⟩
  have hfold : ∀ (ms : List Marker) (j : MarkerJudgement), ∃ ps,
      (ms.foldl (MarkerJudgement.step r target) j).problems = j.problems ++ ps ∧
        Once [.unknownAttribute, .duplicateAttribute] (places (ms.flatMap (·.atoms))) ps := by
    intro ms
    induction ms with
    | nil =>
        intro j
        exact ⟨[], by simp, .nil⟩
    | cons m rest ih =>
        intro j
        obtain ⟨ps, hps, hm⟩ := hstep j m
        obtain ⟨qs, hqs, hrest⟩ := ih (j.step r target m)
        refine ⟨ps ++ qs, ?_, ?_⟩
        · rw [List.foldl_cons, hqs, hps, List.append_assoc]
        · rw [List.flatMap_cons, places_append]
          exact hm.append hrest
  obtain ⟨ps, hps, honce⟩ := hfold markers .start
  rw [problemsOf_judgeMarkers, hps]
  exact honce

/-- The markers at one place are each reported once. -/
theorem MarkerSite.once_problems (r : Registry) (site : MarkerSite) :
    Once [.unknownAttribute, .duplicateAttribute] (places site.atoms) (site.problems r) := by
  rw [problems_eq]
  exact problemsOf_judgeMarkers_once r site.target site.markers

/-- The places of many lists, one after the other. -/
theorem places_flatMap {α : Type} (as : List α) (f : α → List Atom) :
    places (as.flatMap f) = as.flatMap fun a => places (f a) :=
  List.filterMap_flatMap

/-- The spans of the statements of a function are among those of the function. -/
theorem Function.places_stmts_sublist (f : Function) :
    (places (Stmt.atomsList f.body.stmts)).Sublist f.spans :=
  places_sublist f.atoms_stmts_sublist

/-- The rules on markers judge each marker of a kernel once. -/
theorem Subject.once_markerProblems (s : Subject) :
    Once [.unknownAttribute, .duplicateAttribute] s.kernel.spans s.markerProblems := by
  have hown : Once [.unknownAttribute, .duplicateAttribute]
      (places (s.kernel.markers.flatMap (·.atoms)))
      (problemsOf (s.kernel.strictKernel s.registry)) := by
    rw [Function.strictKernel, problemsOf_map]
    exact problemsOf_judgeMarkers_once s.registry .function s.kernel.markers
  have hsites : Once [.unknownAttribute, .duplicateAttribute]
      (places (Stmt.atomsList s.kernel.body.stmts))
      ((Stmt.markerSitesList s.kernel.body.stmts).flatMap (·.problems s.registry)) := by
    have hall := Once.flatMap (Stmt.markerSitesList s.kernel.body.stmts)
      fun site _ => site.once_problems s.registry
    rw [← places_flatMap] at hall
    exact hall.mono (places_sublist (Stmt.atoms_markerSitesList_sublist s.kernel.body.stmts))
  apply (hown.append hsites).mono
  rw [← places_append]
  apply places_sublist
  unfold Function.atoms Block.atoms
  refine ((List.Sublist.append_left ?_ _).cons _).cons _
  exact (((List.Sublist.refl _).cons _).trans (List.sublist_append_right _ _)).trans
    (List.sublist_append_right _ _)

/-! ## Headers -/

/-- The span of an expression is a place in it. -/
theorem Expr.span_mem (e : Expr) : e.span ∈ places e.atoms := by
  cases e <;> simp [span, atoms]

namespace LoopHeader

/-- A bad init clause is reported at a place of the loop. -/
theorem span_mem_of_induction {t : Interner} {h : LoopHeader} {issue : InductionIssue} {s : Span}
    {var : Option Name} (heq : h.induction t = .error (issue, s, var)) : s ∈ places h.atoms := by
  obtain ⟨init, test, update, markers, span⟩ := h
  match init, heq with
  | none, heq =>
      cases heq
      simp [atoms]
  | some (.expr e), heq =>
      cases heq
      simp [atoms, ForInit.atoms, e.span_mem]
  | some (.decl ⟨type, [], ms, declSpan⟩), heq
  | some (.decl ⟨type, _ :: _ :: _, ms, declSpan⟩), heq =>
      cases heq
      simp [atoms, ForInit.atoms, Declaration.atoms]
  | some (.decl ⟨type, [only], ms, declSpan⟩), heq =>
      simp only [induction] at heq
      repeat' split at heq
      all_goals cases heq
      all_goals simp [atoms, ForInit.atoms, Declaration.atoms, Declarator.atoms]

/-- A bad test is reported at a place of the loop. -/
theorem span_mem_of_testIssue? {h : LoopHeader} {var : Name} {issue : TestIssue} {s : Span}
    (heq : h.testIssue? var = some (issue, s)) : s ∈ places h.atoms := by
  obtain ⟨init, test, update, markers, span⟩ := h
  cases test with
  | none =>
      cases heq
      simp [atoms]
  | some test =>
      cases test with
      | binary op left right place =>
          simp only [testIssue?] at heq
          repeat' split at heq
          all_goals cases heq
          · simp [atoms, Expr.atoms, Expr.span]
          · simp [atoms, Expr.atoms, left.span_mem]
      | _ =>
          cases heq
          simp [atoms, Expr.span_mem]

/-- A bad update is reported at a place of the loop. -/
theorem span_mem_of_updateIssue? {h : LoopHeader} {var : Name} {issue : UpdateIssue} {s : Span}
    (heq : h.updateIssue? var = some (issue, s)) : s ∈ places h.atoms := by
  obtain ⟨init, test, update, markers, span⟩ := h
  cases update with
  | none =>
      cases heq
      simp [atoms]
  | some update =>
      obtain ⟨found, -, hfound⟩ := Option.map_eq_some_iff.mp heq
      cases hfound
      simp [atoms, update.span_mem]

/-- Each clause of a header has at most one problem. -/
theorem once_shapeProblems (t : Interner) (h : LoopHeader) :
    Once [.badInduction, .badTest, .badUpdate] (places h.atoms) (h.shapeProblems t) := by
  have hinit : Once [.badInduction] (places h.atoms) (h.inductionProblem t).1.toList := by
    refine .toList fun q hq => ?_
    unfold inductionProblem at hq
    split at hq
    case h_1 => cases hq
    case h_2 heq =>
      cases hq
      exact ⟨List.mem_cons_self, span_mem_of_induction heq⟩
  have htest : ∀ var, Once [.badTest] (places h.atoms) (h.testProblem? var).toList := by
    intro var
    refine .toList fun q hq => ?_
    obtain ⟨⟨issue, s⟩, heq, rfl⟩ := Option.map_eq_some_iff.mp hq
    exact ⟨List.mem_cons_self, span_mem_of_testIssue? heq⟩
  have hupdate : ∀ var, Once [.badUpdate] (places h.atoms) (h.updateProblem? var).toList := by
    intro var
    refine .toList fun q hq => ?_
    obtain ⟨⟨issue, s⟩, heq, rfl⟩ := Option.map_eq_some_iff.mp hq
    exact ⟨List.mem_cons_self, span_mem_of_updateIssue? heq⟩
  have hthree : ∀ var, Once [.badInduction, .badTest, .badUpdate] (places h.atoms)
      ((h.inductionProblem t).1.toList ++ (h.testProblem? var).toList ++
        (h.updateProblem? var).toList) := by
    intro var
    exact (hinit.join (htest var) (by decide)).join (hupdate var) (by decide)
  have hshape : ∀ ps, h.shape t = .error ps →
      Once [.badInduction, .badTest, .badUpdate] (places h.atoms) ps := by
    intro ps hps
    unfold shape at hps
    split at hps
    case h_1 problem heq =>
      cases hps
      have hnone : Once [.badTest, .badUpdate] (places h.atoms) [] := .nil
      have hjoin := hinit.join hnone (by decide)
      rwa [heq, List.append_nil] at hjoin
    case h_2 problem var heq =>
      have hvar := hthree var
      rw [heq] at hvar
      dsimp only at hps
      split at hps <;> cases hps
      exact hvar
  unfold shapeProblems
  split
  · split
    · exact .nil
    · exact hshape _ ‹_›
  · exact .nil

end LoopHeader

/-- The rules on headers judge each loop of a kernel once. -/
theorem Subject.once_headerProblems (s : Subject) :
    Once [.badInduction, .badTest, .badUpdate] s.kernel.spans s.headerProblems := by
  have hall := Once.flatMap s.kernel.loops fun h _ => h.once_shapeProblems s.names
  rw [← places_flatMap] at hall
  have hloops := places_sublist (Stmt.atoms_loopsList_sublist s.kernel.body.stmts)
  exact hall.mono (hloops.trans s.kernel.places_stmts_sublist)

/-! ## Nesting -/

namespace Nesting

/-- Missing loops are reported at the kernel itself. -/
theorem once_presenceProblems (kernel : Function) :
    Once [.missingLoops] kernel.spans (presenceProblems kernel) := by
  refine .toList fun q hq => ?_
  obtain ⟨missing, -, rfl⟩ := Option.map_eq_some_iff.mp hq
  exact ⟨List.mem_cons_self, List.mem_cons_self⟩

/-- A loop in a wrong place is reported once, at the loop. -/
theorem Above.once_problem? (above : Above) (h : LoopHeader) :
    Once [.outerBelowInner, .innerOutsideOuter] (places h.atoms) (above.problem? h).toList := by
  refine .toList fun q hq => ?_
  unfold problem? at hq
  repeat' split at hq
  all_goals cases hq
  all_goals simp [Problem.code, Problem.span, LoopHeader.atoms]

mutual

/-- The loops of a statement are each reported once by their place. -/
theorem once_hierarchyProblems (above : Above) : ∀ st : Stmt,
    Once [.outerBelowInner, .innerOutsideOuter] (places st.atoms) (hierarchyProblems above st)
  | .expr .. | .decl .. | .caseLabel .. | .breakJump .. | .continueJump .. | .returnJump ..
  | .empty .. => .nil
  | .block stmts _ _ => (once_hierarchyProblemsList above stmts).mono (by simp [Stmt.atoms])
  | .ifThen _ a _ | .whileLoop _ a _ | .switch _ a _ | .doWhile a _ _ =>
      (once_hierarchyProblems above a).mono (by simp [Stmt.atoms])
  | .ifElse _ a b _ => by
      have hbranches := (once_hierarchyProblems above a).append (once_hierarchyProblems above b)
      refine hbranches.mono ?_
      simp [Stmt.atoms]
  | .forLoop header body _ => by
      have hbody := once_hierarchyProblems (above.enter header) body
      refine ((above.once_problem? header).append hbody).mono ?_
      simp [Stmt.atoms]

/-- The same for several statements. -/
theorem once_hierarchyProblemsList (above : Above) : ∀ stmts : List Stmt,
    Once [.outerBelowInner, .innerOutsideOuter] (places (Stmt.atomsList stmts))
      (hierarchyProblemsList above stmts)
  | [] => .nil
  | st :: rest => by
      have hboth := (once_hierarchyProblems above st).append (once_hierarchyProblemsList above rest)
      rwa [Stmt.atomsList, places_append]

end

/-- The spans of the loops on a frontier. -/
def Frontier.spans (fr : Frontier) : List Span := fr.inner.map (·.span) ++ fr.outer.map (·.span)

/-- The loops of a frontier are each compared once. -/
theorem Frontier.once_problems (fr : Frontier) : Once [.unevenDepth] fr.spans fr.problems := by
  have hsiblings : ∀ ls : List FrontierLoop,
      Once [.unevenDepth] (ls.map (·.span)) (siblingProblems ls) := by
    intro ls
    cases ls with
    | nil => exact .nil
    | cons first rest =>
        apply Once.of_spans
        · intro p hp
          obtain ⟨l, -, rfl⟩ := List.mem_map.mp hp
          exact List.mem_cons_self
        · rw [siblingProblems, List.map_map]
          exact (List.filter_sublist.map _).cons _
  exact (hsiblings fr.inner).append (hsiblings fr.outer)

/-- The problems below a statement and the loops on its frontier, which have not
been judged yet, are at different nodes. -/
structure Unjudged (fr : Frontier) (xs : List Span) (ps : List Problem) : Prop where
  code : ∀ p ∈ ps, p.code ∈ [Code.unevenDepth]
  count : ∀ c x, (ps.map (·.key)).count (c, x) + fr.spans.count x ≤ xs.count x

namespace Unjudged

variable {fr fr' : Frontier} {xs ys : List Span} {ps qs : List Problem}

/-- No frontier and no problems. -/
theorem nothing : Unjudged .empty xs [] := by
  constructor
  · simp
  · simp [Frontier.spans, Frontier.empty]

/-- What two statements leave to be judged, and the problems in them. -/
theorem append (hp : Unjudged fr xs ps) (hq : Unjudged fr' ys qs) :
    Unjudged (fr.append fr') (xs ++ ys) (ps ++ qs) := by
  constructor
  · intro p hmem
    rcases List.mem_append.mp hmem with hmem | hmem
    · exact hp.code p hmem
    · exact hq.code p hmem
  · intro c x
    have hps := hp.count c x
    have hqs := hq.count c x
    simp only [Frontier.spans, Frontier.append, List.map_append, List.count_append] at *
    omega

/-- More spans leave room for the same frontier and problems. -/
theorem mono (h : Unjudged fr xs ps) (hsub : xs.Sublist ys) : Unjudged fr ys ps :=
  ⟨h.code, fun c x => (h.count c x).trans (hsub.count_le x)⟩

/-- Once an attributed loop is left, the frontier of its body is judged, and the
loop itself is on a frontier. -/
theorem loop (h : Unjudged fr xs ps) (header : LoopHeader) (depth : Nat) :
    Unjudged (Frontier.empty.add header depth) (header.span :: xs) (ps ++ fr.problems) := by
  have hfrontier := fr.once_problems
  constructor
  · intro p hmem
    rcases List.mem_append.mp hmem with hmem | hmem
    · exact h.code p hmem
    · exact hfrontier.code p hmem
  · intro c x
    -- the loops that are judged now had been counted apart from the problems so far
    have hbody := h.count c x
    have hjudged := hfrontier.count c x
    have hloop : (Frontier.empty.add header depth).spans.count x ≤ [header.span].count x := by
      unfold Frontier.add
      split <;> simp [Frontier.spans, Frontier.empty]
    rw [List.map_append, List.count_append, ← List.singleton_append, List.count_append]
    omega

/-- Once the frontier is forgotten, what is left are the problems. -/
theorem once (h : Unjudged fr xs ps) : Once [.unevenDepth] xs ps := by
  refine ⟨h.code, fun c x => ?_⟩
  have := h.count c x
  omega

end Unjudged

mutual

/-- The loops that a statement leaves to be judged are not yet reported for their depth, and all
others at most once. -/
theorem unjudged_depthProblems : ∀ st : Stmt,
    Unjudged (frontier st) (places st.atoms) (depthProblems st)
  | .expr .. | .decl .. | .caseLabel .. | .breakJump .. | .continueJump .. | .returnJump ..
  | .empty .. => .nothing
  | .block stmts _ _ => (unjudged_depthProblemsList stmts).mono (by simp [Stmt.atoms])
  | .ifThen _ a _ | .whileLoop _ a _ | .switch _ a _ | .doWhile a _ _ =>
      (unjudged_depthProblems a).mono (by simp [Stmt.atoms])
  | .ifElse _ a b _ => by
      have hbranches := (unjudged_depthProblems a).append (unjudged_depthProblems b)
      refine hbranches.mono ?_
      simp [Stmt.atoms]
  | .forLoop header body _ => by
      have hbody := unjudged_depthProblems body
      rw [frontier, depthProblems]
      split
      · have hheader : [header.span].Sublist (places header.atoms) := by simp [LoopHeader.atoms]
        refine (hbody.loop header _).mono ?_
        rw [Stmt.atoms, places_cons_wrapper, places_append]
        exact hheader.append_right (places body.atoms)
      · rw [List.append_nil]
        refine hbody.mono ?_
        simp [Stmt.atoms]

/-- The same for several statements. -/
theorem unjudged_depthProblemsList : ∀ stmts : List Stmt,
    Unjudged (frontierList stmts) (places (Stmt.atomsList stmts)) (depthProblemsList stmts)
  | [] => .nothing
  | st :: rest => by
      have hboth := (unjudged_depthProblems st).append (unjudged_depthProblemsList rest)
      rwa [Stmt.atomsList, places_append]

end

end Nesting

/-- The rules on nesting judge each loop of a kernel once for each code. -/
theorem Subject.once_nestingProblems (s : Subject) :
    Once [.missingLoops, .outerBelowInner, .innerOutsideOuter, .unevenDepth] s.kernel.spans
      s.nestingProblems := by
  have hstmts := s.kernel.places_stmts_sublist
  have hhierarchy := (Nesting.once_hierarchyProblemsList .nothing s.kernel.body.stmts).mono hstmts
  have hdepth := (Nesting.unjudged_depthProblemsList s.kernel.body.stmts).once.mono hstmts
  exact (Nesting.once_presenceProblems s.kernel).join (hhierarchy.join hdepth (by decide))
    (by decide)

/-! ## Storage -/

namespace Storage

/-- A declaration in a wrong place is reported once, at the declaration. -/
theorem once_roleProblem? (s : Scope) (d : Declaration) :
    Once [.sharedOutsideOuter, .sharedInsideInner, .exclusiveOutsideOuter, .exclusiveInsideInner]
      [d.span] (roleProblem? s d).toList := by
  refine .toList fun q hq => ?_
  unfold roleProblem? at hq
  repeat' split at hq
  all_goals cases hq
  all_goals simp [Problem.code, Problem.span]

/-- The dimensions of a declaration are each reported once. -/
theorem once_boundProblems (s : Scope) (d : Declaration) :
    Once [.variantBound] (places (d.declarators.flatMap (·.atoms))) (boundProblems s d) := by
  rw [places_flatMap]
  refine .flatMap _ fun array _ => ?_
  have hdims : ∀ dims : List Expr, Once [.variantBound] (places (Expr.atomsList dims))
      (dims.filterMap (boundProblem? s s.variantNames array.name)) := by
    intro dims
    induction dims with
    | nil => exact .nil
    | cons dim rest ih =>
        have hdim : Once [.variantBound] (places dim.atoms)
            (boundProblem? s s.variantNames array.name dim).toList := by
          refine .toList fun q hq => ?_
          rw [boundProblem?_eq_map] at hq
          obtain ⟨o, -, rfl⟩ := Option.map_eq_some_iff.mp hq
          exact ⟨List.mem_cons_self, dim.span_mem⟩
        have hboth := hdim.append ih
        rw [Expr.atomsList, places_append, List.filterMap_cons]
        cases hq : boundProblem? s s.variantNames array.name dim <;> rw [hq] at hboth <;>
          exact hboth
  refine (hdims array.dims).mono ?_
  simp [Declarator.atoms]

/-- A declaration and its dimensions are each reported once. -/
theorem once_declarationProblems (s : Scope) (d : Declaration) :
    Once [.sharedOutsideOuter, .sharedInsideInner, .exclusiveOutsideOuter, .exclusiveInsideInner,
      .variantBound] (places d.atoms) (declarationProblems s d) := by
  have hbounds : Once [.variantBound] (places (d.declarators.flatMap (·.atoms)))
      (if d.role = .shared then boundProblems s d else []) := by
    split
    · exact once_boundProblems s d
    · exact .nil
  have hdeclarators : (places (d.declarators.flatMap (·.atoms))).Sublist (places d.atoms) := by
    have htype := List.sublist_append_right d.type.atoms (d.declarators.flatMap (·.atoms))
    have hmarkers := htype.trans (List.sublist_append_right (d.markers.flatMap (·.atoms)) _)
    exact places_sublist (hmarkers.cons _)
  have hspan : [d.span].Sublist (places d.atoms) := by
    simp [Declaration.atoms]
  exact ((once_roleProblem? s d).mono hspan).join (hbounds.mono hdeclarators) (by decide)

/-- The declaration of an init clause is judged once. -/
theorem atoms_judgedInit_sublist (init : Option ForInit) (s : Scope) :
    ((judgedInit init s).flatMap (·.2.atoms)).Sublist (init.toList.flatMap (·.atoms)) := by
  match init with
  | some (.decl d) => exact List.Sublist.refl _
  | none | some (.expr _) => exact List.nil_sublist _

mutual

/-- The declarations of a statement are each judged once, in source order. -/
theorem atoms_judged_sublist : ∀ (st : Stmt) (s : Scope),
    ((judged st s).flatMap (·.2.atoms)).Sublist st.atoms
  | .expr .., _ | .caseLabel .., _ | .breakJump .., _ | .continueJump .., _ | .returnJump .., _
  | .empty .., _ => List.nil_sublist _
  | .decl d _, _ => by simp [judged, Stmt.atoms]
  | .block stmts _ _, s => ((atoms_judgedList_sublist stmts s).cons _).cons _
  | .ifThen _ a _, s | .switch _ a _, s =>
      ((atoms_judged_sublist a s).trans (List.sublist_append_right _ _)).cons _
  | .whileLoop _ a span, s =>
      ((atoms_judged_sublist a (s.enter .plain span)).trans (List.sublist_append_right _ _)).cons _
  | .doWhile a _ span, s =>
      ((atoms_judged_sublist a (s.enter .plain span)).trans (List.sublist_append_left _ _)).cons _
  | .ifElse _ a b _, s => by
      have hbranches := (atoms_judged_sublist a s).append
        (atoms_judged_sublist b ((after a s).leave s))
      rw [judged, List.flatMap_append]
      exact (hbranches.trans (List.sublist_append_right _ _)).cons _
  | .forLoop header body _, s => by
      have hinit : ((judgedInit header.init s).flatMap (·.2.atoms)).Sublist header.atoms := by
        have hclause := (atoms_judgedInit_sublist header.init s).trans
          (List.sublist_append_left _ (header.test.toList.flatMap (·.atoms) ++
            header.update.toList.flatMap (·.atoms)))
        exact (hclause.trans (List.sublist_append_right _ _)).cons _
      have hbody := atoms_judged_sublist body (insideLoop header (aroundLoop header.init s))
      rw [judged, List.flatMap_append]
      exact (hinit.append hbody).cons _

/-- The same for several statements. -/
theorem atoms_judgedList_sublist : ∀ (stmts : List Stmt) (s : Scope),
    ((judgedList stmts s).flatMap (·.2.atoms)).Sublist (Stmt.atomsList stmts)
  | [], _ => List.nil_sublist _
  | st :: rest, s => by
      rw [judgedList, List.flatMap_append]
      exact (atoms_judged_sublist st s).append (atoms_judgedList_sublist rest (after st s))

end

end Storage

/-- The rules on storage judge each declaration of a kernel once. -/
theorem Function.once_storageProblems (kernel : Function) :
    Once [.sharedOutsideOuter, .sharedInsideInner, .exclusiveOutsideOuter, .exclusiveInsideInner,
      .variantBound] kernel.spans kernel.storageProblems := by
  have hall := Once.flatMap kernel.judged
    fun j _ => Storage.once_declarationProblems j.1 j.2
  rw [← places_flatMap] at hall
  have hjudged := places_sublist
    (Storage.atoms_judgedList_sublist kernel.body.stmts (Storage.atStart kernel))
  exact hall.mono (hjudged.trans kernel.places_stmts_sublist)

/-! ## Jumps -/

namespace Jumps

mutual

/-- The jumps of a statement are each reported once. -/
theorem once_problems (targets : List JumpTarget) : ∀ st : Stmt,
    Once [.illegalBreak, .illegalContinue] (places st.atoms) (problems targets st)
  | .expr .. | .decl .. | .caseLabel .. | .returnJump .. | .empty .. => .nil
  | .breakJump span => by
      refine .toList fun q hq => ?_
      obtain ⟨loop, -, rfl⟩ := Option.map_eq_some_iff.mp hq
      simp [Problem.code, Problem.span, Stmt.atoms]
  | .continueJump span => by
      refine .toList fun q hq => ?_
      obtain ⟨loop, -, rfl⟩ := Option.map_eq_some_iff.mp hq
      simp [Problem.code, Problem.span, Stmt.atoms]
  | .block stmts _ _ => (once_problemsList targets stmts).mono (by simp [Stmt.atoms])
  | .ifThen _ a _ => (once_problems targets a).mono (by simp [Stmt.atoms])
  | .switch _ a _ => (once_problems (.switch :: targets) a).mono (by simp [Stmt.atoms])
  | .whileLoop _ a span | .doWhile a _ span =>
      (once_problems (.loop .plain span :: targets) a).mono (by simp [Stmt.atoms])
  | .forLoop header body _ =>
      (once_problems (.loop header.role header.span :: targets) body).mono (by simp [Stmt.atoms])
  | .ifElse _ a b _ => by
      have hbranches := (once_problems targets a).append (once_problems targets b)
      refine hbranches.mono ?_
      simp [Stmt.atoms]

/-- The same for several statements. -/
theorem once_problemsList (targets : List JumpTarget) : ∀ stmts : List Stmt,
    Once [.illegalBreak, .illegalContinue] (places (Stmt.atomsList stmts))
      (problemsList targets stmts)
  | [] => .nil
  | st :: rest => by
      have hboth := (once_problems targets st).append (once_problemsList targets rest)
      rwa [Stmt.atomsList, places_append]

end

end Jumps

/-- The rules on jumps judge each jump of a kernel once. -/
theorem Subject.once_jumpProblems (s : Subject) :
    Once [.illegalBreak, .illegalContinue] s.kernel.spans s.jumpProblems :=
  (Jumps.once_problemsList [] s.kernel.body.stmts).mono s.kernel.places_stmts_sublist

/-! ## Kernels -/

/-- **All families together** report a node once for each code. -/
theorem Function.once_problems (kernel : Function) (names : Interner) (registry : Registry) :
    Once Code.all kernel.spans (kernel.verdict names registry .all).problems := by
  let s : Subject := { kernel, names, registry }
  have hstorage := kernel.once_storageProblems.join s.once_jumpProblems (by decide)
  have hnesting := s.once_nestingProblems.join hstorage (by decide)
  have hheaders := s.once_headerProblems.join hnesting (by decide)
  have hall := s.once_markerProblems.join hheaders (by decide)
  rw [problems_verdict_all]
  exact ⟨fun p _ => by cases p.code <;> decide, hall.count⟩

/-- **No violation is reported twice.**  If no two nodes of a kernel have the same
span, then no two problems have the same code and the same span.  In any case
every span in a problem, the main one or another, is that of a node. -/
theorem problems_distinct (kernel : Function) (names : Interner) (registry : Registry) :
    (kernel.spans.Nodup →
      ((kernel.verdict names registry .all).problems.map fun p => (p.code, p.span)).Nodup) ∧
    ∀ p ∈ (kernel.verdict names registry .all).problems,
      p.span ∈ kernel.spans ∧ ∀ x, .place x ∈ p.atoms → x ∈ kernel.spans := by
  have hspans : ∀ p ∈ (kernel.verdict names registry .all).problems,
      ∀ x, .place x ∈ p.atoms → x ∈ kernel.spans := by
    intro p hp x hx
    have hverdict := Problem.atoms_subset_verdict hp hx
    exact mem_places.mpr (kernel.atoms_verdict_subset names registry .all hverdict)
  constructor
  · intro hnodup
    exact (kernel.once_problems names registry).keys_nodup hnodup
  · intro p hp
    have hspan : .place p.span ∈ p.atoms := by cases p <;> exact List.mem_cons_self
    exact ⟨hspans p hp p.span hspan, hspans p hp⟩

/-- A built kernel, in which five nodes break a rule. -/
def Function.builtSample : Function :=
  let build : Build Function := do
    let alone ← Builder.exclusive "x"
    let array ← Builder.shared "s" [← Builder.ident "o"]
    let short ← Builder.inner "i" 4 [← Builder.breakJump, ← Builder.continueJump]
    let long ← Builder.inner "j" 4 [← Builder.inner "l" 4 []]
    let groups ← Builder.outer "o" 4 [array, short, long]
    Builder.kernel "k" [alone, groups]
  (build.run (.start .initial)).1

/-- Nodes that are built have spans of their own, and each is reported once. -/
theorem problems_distinct_builtSample :
    let problems := (Function.builtSample.verdict .initial .empty .all).problems
    Function.builtSample.spans.Nodup ∧
      problems.map (·.code) =
        [.unevenDepth, .exclusiveOutsideOuter, .variantBound, .illegalBreak, .illegalContinue] ∧
      (problems.map fun p => (p.code, p.span)).Nodup := by
  intro problems
  have hspans : Function.builtSample.spans.Nodup := by decide +kernel
  refine ⟨hspans, by decide +kernel, ?_⟩
  exact (problems_distinct Function.builtSample .initial .empty).1 hspans

end KernelCheck
