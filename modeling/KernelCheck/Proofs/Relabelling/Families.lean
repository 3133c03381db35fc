import KernelCheck.Proofs.Families
import KernelCheck.Proofs.Nesting.Frontier
import KernelCheck.Proofs.Occurrences
import KernelCheck.Proofs.Relabelling.Details
import Mathlib.Data.List.Basic

/-!
# Markers, headers, nesting and jumps of a relabelled kernel

These four families of rules carry places along and never look at them, and
they compare variables with each other only.  So what they find in a relabelled
kernel is what they find in the kernel, relabelled.

* `Relabelling.Keeps` — the words of a kernel mean in a second table and registry
  what they mean in the first.  Only the rules on markers and headers ask for it.
* `Subject.markerProblems_relabel`, `Subject.headerProblems_relabel`,
  `Subject.nestingProblems_relabel`, `Subject.jumpProblems_relabel` — the four
  families.
-/

namespace KernelCheck

/-- The words among some atoms read alike and are accepted in the same places:
as they stand in one subject, and relabelled in the other. -/
structure Relabelling.Keeps (ρ : Relabelling) (s s' : Subject) (as : List Atom) : Prop where
  lookup : ∀ n, .word n ∈ as → s'.names.lookup (ρ.word n) = s.names.lookup n
  targets : ∀ n, .word n ∈ as → s'.registry.targets (ρ.word n) = s.registry.targets n

/-- What is kept for many atoms is kept for fewer. -/
theorem Relabelling.Keeps.mono {ρ : Relabelling} {s s' : Subject} {as bs : List Atom}
    (h : ρ.Keeps s s' bs) (hsub : as ⊆ bs) : ρ.Keeps s s' as :=
  ⟨fun n hn => h.lookup n (hsub hn), fun n hn => h.targets n (hsub hn)⟩

variable {ρ : Relabelling} {s s' : Subject}

/-! ## Markers -/

/-- A relabelled marker is built in if the marker is. -/
theorem MarkerKind.isBuiltin_relabel (kind : MarkerKind) :
    (kind.relabel ρ).isBuiltin = kind.isBuiltin := by
  cases kind <;> rfl

/-- A registry that is kept accepts a relabelled marker if it accepts the marker. -/
theorem Registry.accepts_relabel {kind : MarkerKind} (h : ρ.Keeps s s' kind.atoms)
    (target : Target) :
    s'.registry.accepts (kind.relabel ρ) target = s.registry.accepts kind target := by
  cases kind with
  | custom n => exact congrArg (·.contains target) (h.targets n List.mem_cons_self)
  | _ => rfl

def MarkerJudgement.relabel (ρ : Relabelling) (j : MarkerJudgement) : MarkerJudgement :=
  ⟨j.first.map (·.relabel ρ), j.problems.map (·.relabel ρ)⟩

/-- One step of the judgement of markers, relabelled. -/
theorem MarkerJudgement.step_relabel {m : Marker} (h : ρ.Keeps s s' m.atoms) (target : Target)
    (j : MarkerJudgement) :
    step s'.registry target (j.relabel ρ) (m.relabel ρ) =
      (step s.registry target j m).relabel ρ := by
  have haccepts := Registry.accepts_relabel (h.mono (List.subset_cons_self _ _)) target
  obtain ⟨first, problems⟩ := j
  unfold step
  simp only [Marker.relabel, haccepts, MarkerKind.isBuiltin_relabel]
  split
  · simp [relabel, Problem.relabel]
  · split
    · rfl
    · cases first with
      | none => rfl
      | some first => simp [relabel, Problem.relabel, Marker.relabel]

/-- What a success yields makes no problems. -/
theorem problemsOf_map {α β : Type} (f : α → β) (x : Except (List Problem) α) :
    problemsOf (x.map f) = problemsOf x := by
  cases x <;> rfl

/-- The problems with the markers of a node are those that the last of them leaves. -/
theorem problemsOf_judgeMarkers (r : Registry) (target : Target) (markers : List Marker) :
    problemsOf (judgeMarkers r target markers) =
      (markers.foldl (MarkerJudgement.step r target) .start).problems := by
  unfold judgeMarkers
  dsimp only
  split
  case isTrue hempty => exact (List.isEmpty_iff.mp hempty).symm
  case isFalse => rfl

/-- Relabelled markers have the relabelled problems. -/
theorem problemsOf_judgeMarkers_relabel {markers : List Marker}
    (h : ρ.Keeps s s' (markers.flatMap (·.atoms))) (target : Target) :
    problemsOf (judgeMarkers s'.registry target (markers.map (·.relabel ρ))) =
      (problemsOf (judgeMarkers s.registry target markers)).map (·.relabel ρ) := by
  have hfold : ∀ (ms : List Marker) (j : MarkerJudgement),
      ρ.Keeps s s' (ms.flatMap (·.atoms)) →
      (ms.map (·.relabel ρ)).foldl (MarkerJudgement.step s'.registry target) (j.relabel ρ) =
        (ms.foldl (MarkerJudgement.step s.registry target) j).relabel ρ := by
    intro ms
    induction ms with
    | nil => intros; rfl
    | cons m rest ih =>
        intro j h
        rw [List.flatMap_cons] at h
        have hm := MarkerJudgement.step_relabel (h.mono (List.subset_append_left _ _)) target j
        rw [List.map_cons, List.foldl_cons, List.foldl_cons, hm]
        exact ih _ (h.mono (List.subset_append_right _ _))
  rw [problemsOf_judgeMarkers, problemsOf_judgeMarkers]
  exact congrArg (·.problems) (hfold markers .start h)

def MarkerSite.relabel (ρ : Relabelling) : MarkerSite → MarkerSite
  | .loop header => .loop (header.relabel ρ)
  | .declaration d => .declaration (d.relabel ρ)

/-- What a node is to a registry. -/
def MarkerSite.target : MarkerSite → Target
  | .loop _ => .loop
  | .declaration _ => .declaration

/-- Loops and declarations have their markers judged in the same way. -/
theorem MarkerSite.problems_eq (site : MarkerSite) (r : Registry) :
    site.problems r = problemsOf (judgeMarkers r site.target site.markers) := by
  cases site with
  | loop header => exact problemsOf_map _ _
  | declaration d => exact problemsOf_map _ _

/-- The same for the markers at one place. -/
theorem MarkerSite.problems_relabel {site : MarkerSite} (h : ρ.Keeps s s' site.atoms) :
    (site.relabel ρ).problems s'.registry = (site.problems s.registry).map (·.relabel ρ) := by
  have htarget : (site.relabel ρ).target = site.target := by cases site <;> rfl
  have hmarkers : (site.relabel ρ).markers = site.markers.map (·.relabel ρ) := by
    cases site <;> rfl
  rw [problems_eq, problems_eq, htarget, hmarkers]
  exact problemsOf_judgeMarkers_relabel h site.target

/-- The places for markers in a relabelled loop header. -/
theorem LoopHeader.initSites_relabel (h : LoopHeader) :
    (h.relabel ρ).initSites = h.initSites.map (·.relabel ρ) := by
  obtain ⟨init, test, update, markers, span⟩ := h
  match init with
  | none | some (.expr _) | some (.decl _) => rfl

namespace Stmt

mutual

/-- The places for markers in a relabelled statement. -/
theorem markerSites_relabel :
    ∀ st : Stmt, (st.relabel ρ).markerSites = st.markerSites.map (·.relabel ρ)
  | .expr .. | .decl .. | .caseLabel .. | .breakJump .. | .continueJump .. | .returnJump ..
  | .empty .. => rfl
  | .block stmts _ _ => markerSitesList_relabel stmts
  | .ifThen _ a _ | .whileLoop _ a _ | .doWhile a _ _ | .switch _ a _ => markerSites_relabel a
  | .ifElse _ a b _ => by
      rw [relabel, markerSites, markerSites, markerSites_relabel a, markerSites_relabel b,
        List.map_append]
  | .forLoop header body _ => by
      rw [relabel, markerSites, markerSites, LoopHeader.initSites_relabel,
        markerSites_relabel body, List.map_cons, List.map_append]
      rfl

theorem markerSitesList_relabel : ∀ stmts : List Stmt,
    markerSitesList (relabelList ρ stmts) = (markerSitesList stmts).map (·.relabel ρ)
  | [] => rfl
  | st :: rest => by
      rw [relabelList, markerSitesList, markerSitesList, markerSites_relabel st,
        markerSitesList_relabel rest, List.map_append]

end

end Stmt

/-- Something is relabelled in all problems of several nodes if it is in those of each. -/
theorem flatMap_relabel {α : Type} {f f' : α → List Problem} {g : α → α} {xs : List α}
    (h : ∀ x ∈ xs, f' (g x) = (f x).map (·.relabel ρ)) :
    (xs.map g).flatMap f' = (xs.flatMap f).map (·.relabel ρ) := by
  rw [List.flatMap_map, List.map_flatMap]
  exact List.flatMap_congr h

/-- **Markers.** -/
theorem Subject.markerProblems_relabel (hkernel : s'.kernel = s.kernel.relabel ρ)
    (h : ρ.Keeps s s' s.kernel.atoms) :
    s'.markerProblems = s.markerProblems.map (·.relabel ρ) := by
  have hown : problemsOf (s'.kernel.strictKernel s'.registry) =
      (problemsOf (s.kernel.strictKernel s.registry)).map (·.relabel ρ) := by
    rw [hkernel, Function.strictKernel, Function.strictKernel, problemsOf_map, problemsOf_map]
    refine problemsOf_judgeMarkers_relabel (h.mono ?_) .function
    intro a ha
    simp [Function.atoms, ha]
  have hsites : (Stmt.markerSitesList s'.kernel.body.stmts).flatMap (·.problems s'.registry) =
      ((Stmt.markerSitesList s.kernel.body.stmts).flatMap (·.problems s.registry)).map
        (·.relabel ρ) := by
    have hstmts : s'.kernel.body.stmts = Stmt.relabelList ρ s.kernel.body.stmts := by
      rw [hkernel]
      rfl
    rw [hstmts, Stmt.markerSitesList_relabel]
    refine flatMap_relabel fun site hsite => MarkerSite.problems_relabel (h.mono ?_)
    have hstmt := (Stmt.atoms_markerSitesList_sublist s.kernel.body.stmts).subset
    intro a ha
    exact s.kernel.atoms_stmts_sublist.subset (hstmt (List.mem_flatMap.mpr ⟨site, hsite, ha⟩))
  rw [markerProblems, markerProblems, hown, hsites, List.map_append]

/-! ## Mentions of variables -/

namespace Expr

/-- A relabelled variable is a variable. -/
@[simp] theorem ident?_relabel (e : Expr) : (e.relabel ρ).ident? = e.ident?.map ρ.var := by
  cases e <;> rfl

/-- A relabelled expression stands at the relabelled place. -/
@[simp] theorem span_relabel (e : Expr) : (e.relabel ρ).span = ρ.place e.span := by
  cases e <;> rfl

mutual

/-- The names that a relabelled expression mentions, in order. -/
theorem occurrences_relabel :
    ∀ e : Expr, (e.relabel ρ).occurrences = e.occurrences.map (Prod.map ρ.var ρ.place)
  | .ident .. | .int .. | .float .. | .char .. | .string .. | .sizeOfType .. => rfl
  | .unary _ e _ | .member e _ _ _ | .cast _ e _ => occurrences_relabel e
  | .binary _ a b _ | .assign _ a b _ | .index a b _ => by
      rw [relabel, occurrences, occurrences, occurrences_relabel a, occurrences_relabel b,
        List.map_append]
  | .call f args _ => by
      rw [relabel, occurrences, occurrences, occurrences_relabel f, occurrencesList_relabel args,
        List.map_append]
  | .ternary c a b _ => by
      rw [relabel, occurrences, occurrences, occurrences_relabel c, occurrences_relabel a,
        occurrences_relabel b, List.map_append, List.map_append]
  | .comma parts _ => occurrencesList_relabel parts

theorem occurrencesList_relabel : ∀ es : List Expr,
    occurrencesList (relabelList ρ es) = (occurrencesList es).map (Prod.map ρ.var ρ.place)
  | [] => rfl
  | e :: rest => by
      rw [relabelList, occurrencesList, occurrencesList, occurrences_relabel e,
        occurrencesList_relabel rest, List.map_append]

end

/-- The first mention with a property, if relabelled names have it when the names do. -/
theorem firstOccurrence?_relabel {p p' : Name → Bool} (h : ∀ n, p' (ρ.var n) = p n) (e : Expr) :
    (e.relabel ρ).firstOccurrence? p' = (e.firstOccurrence? p).map (Prod.map ρ.var ρ.place) := by
  rw [firstOccurrence?_eq_find?, firstOccurrence?_eq_find?, occurrences_relabel, List.find?_map]
  have htest : ((fun o : Name × Span => p' o.1) ∘ Prod.map ρ.var ρ.place) = fun o => p o.1 :=
    funext fun o => h o.1
  rw [htest]

/-- A relabelled expression mentions a relabelled variable if the expression mentions the
variable. -/
theorem mentions_relabel (hρ : Function.Injective ρ.var) (e : Expr) (var : Name) :
    (e.relabel ρ).mentions (ρ.var var) = e.mentions var := by
  have htest : ∀ n, (ρ.var n == ρ.var var) = (n == var) := by
    intro n
    rw [Bool.eq_iff_iff, beq_iff_eq, beq_iff_eq]
    exact hρ.eq_iff
  rw [mentions, mentions, firstOccurrence?_relabel htest, Option.isSome_map]

/-- A relabelled expression is a relabelled variable if the expression is the variable. -/
theorem ident?_relabel_eq_iff (hρ : Function.Injective ρ.var) (e : Expr) (var : Name) :
    (e.relabel ρ).ident? = some (ρ.var var) ↔ e.ident? = some var := by
  rw [ident?_relabel]
  cases e.ident? with
  | none => simp
  | some n => simp [hρ.eq_iff]

end Expr

/-! ## Headers -/

namespace Expr

/-- The amount of a step is judged alike. -/
theorem amountIssue?_relabel (hρ : Function.Injective ρ.var) (amount : Expr) (var : Name) :
    (amount.relabel ρ).amountIssue? (ρ.var var) = amount.amountIssue? var := by
  rw [amountIssue?, amountIssue?, mentions_relabel hρ]

/-- The next value of a variable is judged alike. -/
theorem nextValueIssue?_relabel (hρ : Function.Injective ρ.var) (value : Expr) (var : Name) :
    (value.relabel ρ).nextValueIssue? (ρ.var var) = value.nextValueIssue? var := by
  cases value with
  | binary op left right s =>
      simp only [relabel, nextValueIssue?, Bool.and_eq_true, decide_eq_true_eq,
        ident?_relabel_eq_iff hρ, amountIssue?_relabel hρ]
  | _ => rfl

/-- An update is judged alike. -/
theorem stepIssue?_relabel (hρ : Function.Injective ρ.var) (update : Expr) (var : Name) :
    (update.relabel ρ).stepIssue? (ρ.var var) = update.stepIssue? var := by
  cases update with
  | unary op operand s => simp only [relabel, stepIssue?, ident?_relabel_eq_iff hρ]
  | assign op target value s =>
      simp only [relabel, stepIssue?, ne_eq, ident?_relabel_eq_iff hρ, amountIssue?_relabel hρ,
        nextValueIssue?_relabel hρ]
  | _ => rfl

end Expr

namespace LoopHeader

/-- A relabelled loop has the same role. -/
theorem role_relabel (h : LoopHeader) : (h.relabel ρ).role = h.role := by
  have hkind : ∀ m : Marker, LoopRole.ofKind? (m.relabel ρ).kind = LoopRole.ofKind? m.kind := by
    rintro ⟨kind, span⟩
    cases kind <;> rfl
  simp only [role, relabel, List.findSome?_map, Function.comp_def, hkind]

/-- A test is judged alike, at the relabelled place. -/
theorem testIssue?_relabel (hρ : Function.Injective ρ.var) (h : LoopHeader) (var : Name) :
    (h.relabel ρ).testIssue? (ρ.var var) = (h.testIssue? var).map (Prod.map id ρ.place) := by
  obtain ⟨init, test, update, markers, span⟩ := h
  cases test with
  | none => rfl
  | some test =>
      cases test with
      | binary op left right s =>
          simp only [relabel, testIssue?, Option.map_some, Expr.relabel,
            Expr.ident?_relabel_eq_iff hρ, Expr.span_relabel]
          repeat' split
          all_goals rfl
      | _ => rfl

/-- The update of a loop is judged alike, at the relabelled place. -/
theorem updateIssue?_relabel (hρ : Function.Injective ρ.var) (h : LoopHeader) (var : Name) :
    (h.relabel ρ).updateIssue? (ρ.var var) = (h.updateIssue? var).map (Prod.map id ρ.place) := by
  obtain ⟨init, test, update, markers, span⟩ := h
  cases update with
  | none => rfl
  | some update =>
      simp only [relabel, updateIssue?, Option.map_some, Expr.stepIssue?_relabel hρ,
        Expr.span_relabel]
      cases update.stepIssue? var <;> rfl

/-- A relabelled type is an integer type if the type is. -/
theorem isIntegral_relabel {c : CType} (h : ρ.Keeps s s' c.atoms) :
    (c.relabel ρ).isIntegral s'.names = c.isIntegral s.names := by
  obtain ⟨base, u, k, p⟩ := c
  cases base with
  | named n =>
      have hn := h.lookup n List.mem_cons_self
      simp only [CType.relabel, BaseType.relabel, CType.isIntegral, hn]
  | _ => rfl

/-- An init clause has the relabelled problem, and declares the relabelled variable. -/
theorem inductionProblem_relabel {h : LoopHeader} (hkeeps : ρ.Keeps s s' h.atoms) :
    (h.relabel ρ).inductionProblem s'.names =
      ((h.inductionProblem s.names).1.map (·.relabel ρ),
        (h.inductionProblem s.names).2.map ρ.var) := by
  obtain ⟨init, test, update, markers, span⟩ := h
  match init with
  | none => rfl
  | some (.expr e) =>
      simp only [inductionProblem, induction, relabel, Option.map_some, ForInit.relabel,
        Expr.span_relabel]
      rfl
  | some (.decl ⟨type, [], ms, declSpan⟩) => rfl
  | some (.decl ⟨type, first :: second :: rest, ms, declSpan⟩) =>
      simp [inductionProblem, induction, relabel, ForInit.relabel, Declaration.relabel,
        Problem.relabel]
  | some (.decl ⟨type, [⟨name, dims, value, onlySpan⟩], ms, declSpan⟩) =>
      have htype : ρ.Keeps s s' type.atoms := by
        refine hkeeps.mono fun a ha => ?_
        simp [atoms, ForInit.atoms, Declaration.atoms, ha]
      have hdims : (Expr.relabelList ρ dims).isEmpty = dims.isEmpty := by cases dims <;> rfl
      simp only [inductionProblem, induction, relabel, Option.map_some, ForInit.relabel,
        Declaration.relabel, List.map_cons, List.map_nil, Declarator.relabel, hdims,
        Option.isNone_map, isIntegral_relabel htype]
      cases dims.isEmpty <;> cases value.isNone <;> cases type.isIntegral s.names <;> rfl

/-- **A loop header** has the relabelled problems. -/
theorem shapeProblems_relabel (hρ : Function.Injective ρ.var) {h : LoopHeader}
    (hkeeps : ρ.Keeps s s' h.atoms) :
    (h.relabel ρ).shapeProblems s'.names =
      (h.shapeProblems s.names).map (·.relabel ρ) := by
  have htest : ∀ var, (h.relabel ρ).testProblem? (ρ.var var) =
      (h.testProblem? var).map (·.relabel ρ) := by
    intro var
    rw [testProblem?, testProblem?, testIssue?_relabel hρ]
    cases h.testIssue? var <;> rfl
  have hupdate : ∀ var, (h.relabel ρ).updateProblem? (ρ.var var) =
      (h.updateProblem? var).map (·.relabel ρ) := by
    intro var
    rw [updateProblem?, updateProblem?, updateIssue?_relabel hρ]
    cases h.updateIssue? var <;> rfl
  unfold shapeProblems
  rw [role_relabel]
  split
  case isFalse => rfl
  case isTrue =>
      unfold shape
      rw [inductionProblem_relabel hkeeps]
      obtain ⟨problem, var⟩ := h.inductionProblem s.names
      cases var with
      | none => cases problem <;> rfl
      | some var =>
          simp only [Option.map_some, htest, hupdate]
          cases problem <;> cases h.testProblem? var <;> cases h.updateProblem? var <;> rfl

end LoopHeader

namespace Stmt

mutual

/-- The loops of a relabelled statement. -/
theorem loops_relabel : ∀ st : Stmt, (st.relabel ρ).loops = st.loops.map (·.relabel ρ)
  | .expr .. | .decl .. | .caseLabel .. | .breakJump .. | .continueJump .. | .returnJump ..
  | .empty .. => rfl
  | .block stmts _ _ => loopsList_relabel stmts
  | .ifThen _ a _ | .whileLoop _ a _ | .doWhile a _ _ | .switch _ a _ => loops_relabel a
  | .ifElse _ a b _ => by
      rw [relabel, loops, loops, loops_relabel a, loops_relabel b, List.map_append]
  | .forLoop header body _ => by
      rw [relabel, loops, loops, loops_relabel body, List.map_cons]

theorem loopsList_relabel : ∀ stmts : List Stmt,
    loopsList (relabelList ρ stmts) = (loopsList stmts).map (·.relabel ρ)
  | [] => rfl
  | st :: rest => by
      rw [relabelList, loopsList, loopsList, loops_relabel st, loopsList_relabel rest,
        List.map_append]

end

end Stmt

/-- The loops of a relabelled kernel. -/
theorem Function.loops_relabel (kernel : Function) :
    (kernel.relabel ρ).loops = kernel.loops.map (·.relabel ρ) :=
  Stmt.loopsList_relabel kernel.body.stmts

/-- **Headers.** -/
theorem Subject.headerProblems_relabel (hρ : Function.Injective ρ.var)
    (hkernel : s'.kernel = s.kernel.relabel ρ) (h : ρ.Keeps s s' s.kernel.atoms) :
    s'.headerProblems = s.headerProblems.map (·.relabel ρ) := by
  rw [headerProblems, headerProblems, hkernel, Function.loops_relabel]
  refine flatMap_relabel fun header hheader => header.shapeProblems_relabel hρ (h.mono ?_)
  have hstmt := (Stmt.atoms_loopsList_sublist s.kernel.body.stmts).subset
  intro a ha
  exact s.kernel.atoms_stmts_sublist.subset (hstmt (List.mem_flatMap.mpr ⟨header, hheader, ha⟩))

/-! ## Nesting -/

namespace Nesting

/-- Relabelled loops are missing if the loops are. -/
theorem presenceProblems_relabel (kernel : Function) :
    presenceProblems (kernel.relabel ρ) = (presenceProblems kernel).map (·.relabel ρ) := by
  have hmissing : ∀ hs : List LoopHeader, missingLevel? (hs.map (·.relabel ρ)) =
      missingLevel? hs := by
    intro hs
    simp only [missingLevel?, List.any_map, Function.comp_def, LoopHeader.role_relabel]
  rw [presenceProblems, presenceProblems, Function.loops_relabel, hmissing]
  cases missingLevel? kernel.loops <;> rfl

def Above.relabel (ρ : Relabelling) (above : Above) : Above :=
  { above with outermostInner := above.outermostInner.map ρ.place }

/-- What is above the body of a relabelled loop. -/
theorem Above.enter_relabel (above : Above) (h : LoopHeader) :
    (above.relabel ρ).enter (h.relabel ρ) = (above.enter h).relabel ρ := by
  obtain ⟨hasOuter, inner⟩ := above
  unfold enter
  rw [LoopHeader.role_relabel]
  cases h.role <;> cases inner <;> rfl

/-- A relabelled loop is in a wrong place if the loop is. -/
theorem Above.problem?_relabel (above : Above) (h : LoopHeader) :
    (above.relabel ρ).problem? (h.relabel ρ) = (above.problem? h).map (·.relabel ρ) := by
  obtain ⟨hasOuter, inner⟩ := above
  unfold problem?
  rw [LoopHeader.role_relabel]
  cases h.role <;> cases inner <;> cases hasOuter <;> rfl

mutual

/-- The loops in a wrong place in a relabelled statement. -/
theorem hierarchyProblems_relabel (above : Above) : ∀ st : Stmt,
    hierarchyProblems (above.relabel ρ) (st.relabel ρ) =
      (hierarchyProblems above st).map (·.relabel ρ)
  | .expr .. | .decl .. | .caseLabel .. | .breakJump .. | .continueJump .. | .returnJump ..
  | .empty .. => rfl
  | .block stmts _ _ => hierarchyProblemsList_relabel above stmts
  | .ifThen _ a _ | .whileLoop _ a _ | .doWhile a _ _ | .switch _ a _ =>
      hierarchyProblems_relabel above a
  | .ifElse _ a b _ => by
      rw [Stmt.relabel, hierarchyProblems, hierarchyProblems, hierarchyProblems_relabel above a,
        hierarchyProblems_relabel above b, List.map_append]
  | .forLoop header body _ => by
      rw [Stmt.relabel, hierarchyProblems, hierarchyProblems, Above.problem?_relabel,
        Above.enter_relabel, hierarchyProblems_relabel (above.enter header) body, List.map_append,
        Option.toList_map]

theorem hierarchyProblemsList_relabel (above : Above) : ∀ stmts : List Stmt,
    hierarchyProblemsList (above.relabel ρ) (Stmt.relabelList ρ stmts) =
      (hierarchyProblemsList above stmts).map (·.relabel ρ)
  | [] => rfl
  | st :: rest => by
      rw [Stmt.relabelList, hierarchyProblemsList, hierarchyProblemsList,
        hierarchyProblems_relabel above st, hierarchyProblemsList_relabel above rest,
        List.map_append]

end

def FrontierLoop.relabel (ρ : Relabelling) (l : FrontierLoop) : FrontierLoop :=
  ⟨ρ.place l.span, l.depth⟩

def Frontier.relabel (ρ : Relabelling) (fr : Frontier) : Frontier :=
  ⟨fr.inner.map (·.relabel ρ), fr.outer.map (·.relabel ρ)⟩

namespace Frontier

/-- Two relabelled frontiers, one after the other. -/
theorem append_relabel (a b : Frontier) :
    (a.relabel ρ).append (b.relabel ρ) = (a.append b).relabel ρ := by
  simp [append, relabel]

/-- A frontier of one relabelled loop. -/
theorem add_relabel (h : LoopHeader) (depth : Nat) :
    empty.add (h.relabel ρ) depth = (empty.add h depth).relabel ρ := by
  unfold add
  rw [LoopHeader.role_relabel]
  cases h.role <;> rfl

/-- A relabelled frontier has the same depth. -/
theorem innerDepth_relabel (fr : Frontier) : (fr.relabel ρ).innerDepth = fr.innerDepth := by
  simp only [innerDepth, relabel, List.foldl_map]
  rfl

/-- A relabelled frontier has the relabelled problems. -/
theorem problems_relabel (fr : Frontier) :
    (fr.relabel ρ).problems = fr.problems.map (·.relabel ρ) := by
  have hsiblings : ∀ ls : List FrontierLoop,
      siblingProblems (ls.map (·.relabel ρ)) = (siblingProblems ls).map (·.relabel ρ) := by
    intro ls
    cases ls with
    | nil => rfl
    | cons first rest =>
        simp only [List.map_cons, siblingProblems, List.filter_map, List.map_map]
        rfl
  rw [problems, problems, List.map_append, ← hsiblings, ← hsiblings]
  rfl

end Frontier

mutual

/-- The frontier of a relabelled statement. -/
theorem frontier_relabel : ∀ st : Stmt, frontier (st.relabel ρ) = (frontier st).relabel ρ
  | .expr .. | .decl .. | .caseLabel .. | .breakJump .. | .continueJump .. | .returnJump ..
  | .empty .. => rfl
  | .block stmts _ _ => frontierList_relabel stmts
  | .ifThen _ a _ | .whileLoop _ a _ | .doWhile a _ _ | .switch _ a _ => frontier_relabel a
  | .ifElse _ a b _ => by
      rw [Stmt.relabel, frontier, frontier, frontier_relabel a, frontier_relabel b,
        Frontier.append_relabel]
  | .forLoop header body _ => by
      rw [Stmt.relabel, frontier, frontier, LoopHeader.role_relabel, frontier_relabel body,
        Frontier.innerDepth_relabel, Frontier.add_relabel]
      split <;> rfl

theorem frontierList_relabel : ∀ stmts : List Stmt,
    frontierList (Stmt.relabelList ρ stmts) = (frontierList stmts).relabel ρ
  | [] => rfl
  | st :: rest => by
      rw [Stmt.relabelList, frontierList, frontierList, frontier_relabel st,
        frontierList_relabel rest, Frontier.append_relabel]

end

mutual

/-- The loops of a wrong depth in a relabelled statement. -/
theorem depthProblems_relabel : ∀ st : Stmt,
    depthProblems (st.relabel ρ) = (depthProblems st).map (·.relabel ρ)
  | .expr .. | .decl .. | .caseLabel .. | .breakJump .. | .continueJump .. | .returnJump ..
  | .empty .. => rfl
  | .block stmts _ _ => depthProblemsList_relabel stmts
  | .ifThen _ a _ | .whileLoop _ a _ | .doWhile a _ _ | .switch _ a _ => depthProblems_relabel a
  | .ifElse _ a b _ => by
      rw [Stmt.relabel, depthProblems, depthProblems, depthProblems_relabel a,
        depthProblems_relabel b, List.map_append]
  | .forLoop header body _ => by
      rw [Stmt.relabel, depthProblems, depthProblems, LoopHeader.role_relabel,
        depthProblems_relabel body, frontier_relabel body, Frontier.problems_relabel,
        List.map_append]
      split <;> rfl

theorem depthProblemsList_relabel : ∀ stmts : List Stmt,
    depthProblemsList (Stmt.relabelList ρ stmts) =
      (depthProblemsList stmts).map (·.relabel ρ)
  | [] => rfl
  | st :: rest => by
      rw [Stmt.relabelList, depthProblemsList, depthProblemsList, depthProblems_relabel st,
        depthProblemsList_relabel rest, List.map_append]

end

end Nesting

/-- **Nesting.** -/
theorem Subject.nestingProblems_relabel (hkernel : s'.kernel = s.kernel.relabel ρ) :
    s'.nestingProblems = s.nestingProblems.map (·.relabel ρ) := by
  have hstmts : (s.kernel.relabel ρ).body.stmts = Stmt.relabelList ρ s.kernel.body.stmts := rfl
  have hhierarchy : Nesting.hierarchyProblemsList (Nesting.Above.nothing.relabel ρ)
      (Stmt.relabelList ρ s.kernel.body.stmts) =
        (Nesting.hierarchyProblemsList .nothing s.kernel.body.stmts).map (·.relabel ρ) :=
    Nesting.hierarchyProblemsList_relabel .nothing s.kernel.body.stmts
  rw [nestingProblems, nestingProblems, hkernel, Nesting.presenceProblems_relabel, hstmts,
    Nesting.depthProblemsList_relabel, List.map_append, List.map_append, ← hhierarchy]
  rfl

/-! ## Jumps -/

def JumpTarget.relabel (ρ : Relabelling) : JumpTarget → JumpTarget
  | .loop role span => .loop role (ρ.place span)
  | .switch => .switch

namespace Jumps

/-- A break at a relabelled place among relabelled targets. -/
theorem breakProblem?_relabel (targets : List JumpTarget) (span : Span) :
    breakProblem? (targets.map (·.relabel ρ)) (ρ.place span) =
      (breakProblem? targets span).map (·.relabel ρ) := by
  match targets with
  | [] | .switch :: _ => rfl
  | .loop role _ :: _ => cases role <;> rfl

/-- A continue at a relabelled place among relabelled targets. -/
theorem continueProblem?_relabel (targets : List JumpTarget) (span : Span) :
    continueProblem? (targets.map (·.relabel ρ)) (ρ.place span) =
      (continueProblem? targets span).map (·.relabel ρ) := by
  induction targets with
  | nil => rfl
  | cons target rest ih =>
      cases target with
      | loop role _ => cases role <;> rfl
      | switch => exact ih

mutual

/-- The bad jumps of a relabelled statement. -/
theorem problems_relabel (targets : List JumpTarget) : ∀ st : Stmt,
    problems (targets.map (·.relabel ρ)) (st.relabel ρ) =
      (problems targets st).map (·.relabel ρ)
  | .expr .. | .decl .. | .caseLabel .. | .returnJump .. | .empty .. => rfl
  | .breakJump span => by
      rw [Stmt.relabel, problems, problems, breakProblem?_relabel, Option.toList_map]
  | .continueJump span => by
      rw [Stmt.relabel, problems, problems, continueProblem?_relabel, Option.toList_map]
  | .block stmts _ _ => problemsList_relabel targets stmts
  | .ifThen _ a _ => problems_relabel targets a
  | .ifElse _ a b _ => by
      rw [Stmt.relabel, problems, problems, problems_relabel targets a,
        problems_relabel targets b, List.map_append]
  | .forLoop header body _ => by
      rw [Stmt.relabel, problems, problems, LoopHeader.role_relabel]
      exact problems_relabel (.loop header.role header.span :: targets) body
  | .whileLoop _ body span | .doWhile body _ span =>
      problems_relabel (.loop .plain span :: targets) body
  | .switch _ body _ => problems_relabel (.switch :: targets) body

theorem problemsList_relabel (targets : List JumpTarget) : ∀ stmts : List Stmt,
    problemsList (targets.map (·.relabel ρ)) (Stmt.relabelList ρ stmts) =
      (problemsList targets stmts).map (·.relabel ρ)
  | [] => rfl
  | st :: rest => by
      rw [Stmt.relabelList, problemsList, problemsList, problems_relabel targets st,
        problemsList_relabel targets rest, List.map_append]

end

end Jumps

/-- **Jumps.** -/
theorem Subject.jumpProblems_relabel (hkernel : s'.kernel = s.kernel.relabel ρ) :
    s'.jumpProblems = s.jumpProblems.map (·.relabel ρ) := by
  rw [jumpProblems, jumpProblems, hkernel]
  exact Jumps.problemsList_relabel [] s.kernel.body.stmts

end KernelCheck
