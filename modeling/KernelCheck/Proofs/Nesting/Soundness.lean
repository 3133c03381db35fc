import KernelCheck.Proofs.Nesting.Frontier
import KernelCheck.Proofs.Paths

/-!
# What a kernel without nesting problems looks like

The rules on nesting compare loops with their neighbours only: a loop with the
loops around it, and a loop of a frontier with the first one.  If all these
comparisons are in order, then the loops of a kernel as a whole form one grid
below each outer loop.

1. On every path the outer loops come first and the inner loops after them
   (`ordered_of_hierarchyProblems`).
2. A frontier without problems has one depth, so the depth of the first innermost
   loop is the depth of all (`exists_frontierLoop_of_innermost`).
3. Outer loops that stand side by side in a loop have frontiers of one depth
   (`mem_frontier_outer`).

`nesting_sound` puts the three together.
-/

namespace KernelCheck

/-- The roles of the attributed ones among some loops. -/
def attributedRoles (hs : List LoopHeader) : List LoopRole :=
  (hs.map (·.role)).filter (·.isAttributed)

/-- How many of some loops are inner loops. -/
def innerCount (hs : List LoopHeader) : Nat := hs.countP (·.role == .inner)

/-- Some outer loops and then some inner loops, with an outer one in front of
any inner one. -/
def OuterThenInner (roles : List LoopRole) : Prop :=
  ∃ a b, roles = List.replicate a .outer ++ List.replicate b .inner ∧ (0 < b → 0 < a)

mutual

/-- How many inner loops stand inside each other at most in a statement, where
no outer loop is entered. -/
def Stmt.innerLevels : Stmt → Nat
  | .expr .. | .decl .. | .caseLabel .. | .breakJump .. | .continueJump .. | .returnJump ..
  | .empty .. => 0
  | .block stmts _ _ => Stmt.innerLevelsList stmts
  | .ifThen _ a _ => a.innerLevels
  | .ifElse _ a b _ => max a.innerLevels b.innerLevels
  | .forLoop header body _ =>
    match header.role with
    | .inner => body.innerLevels + 1
    | .outer => 0
    | .plain => body.innerLevels
  | .whileLoop _ body _ | .doWhile body _ _ | .switch _ body _ => body.innerLevels

/-- The same for several statements. -/
def Stmt.innerLevelsList : List Stmt → Nat
  | [] => 0
  | s :: rest => max s.innerLevels (Stmt.innerLevelsList rest)

end

/-- The loops of a kernel are nested as the launch grid needs them to be. -/
structure WellNested (kernel : Function) : Prop where
  /-- There is an outer loop. -/
  hasOuter : ∃ hs h body span, kernel.Path hs (.forLoop h body span) ∧ h.role = .outer
  /-- There is an inner loop. -/
  hasInner : ∃ hs h body span, kernel.Path hs (.forLoop h body span) ∧ h.role = .inner
  /-- On the way to any statement the outer loops come before the inner ones. -/
  ordered : ∀ hs t, kernel.Path hs t → OuterThenInner (attributedRoles hs)
  /-- Every innermost loop whose nearest outer loop is a given one stands inside
  the same number of inner loops, itself included. -/
  levels : ∀ above outer body span, kernel.Path above (.forLoop outer body span) →
    outer.role = .outer → ∀ between inner core span',
      body.Path between (.forLoop inner core span') → inner.role = .inner →
      (∀ h ∈ between, h.role ≠ .outer) → (∀ h ∈ core.loops, h.role ≠ .inner) →
        innerCount (above ++ outer :: between ++ [inner]) = body.innerLevels
  /-- That number is zero for an outer loop that is nearest to no inner loop. -/
  noLevels : ∀ above outer body span, kernel.Path above (.forLoop outer body span) →
    outer.role = .outer →
      (∀ between inner core span', body.Path between (.forLoop inner core span') →
        inner.role = .inner → ∃ h ∈ between, h.role = .outer) → body.innerLevels = 0
  /-- It is the same for all outer loops whose nearest attributed loop is a given one. -/
  siblings : ∀ above container body span, kernel.Path above (.forLoop container body span) →
    container.role.isAttributed → ∀ between outer core span' between' outer' core' span'',
      body.Path between (.forLoop outer core span') → outer.role = .outer →
      (∀ h ∈ between, h.role = .plain) →
      body.Path between' (.forLoop outer' core' span'') → outer'.role = .outer →
      (∀ h ∈ between', h.role = .plain) → core.innerLevels = core'.innerLevels

/-! ## The order of the loops on a path -/

/-- The roles along two ways down, one after the other. -/
theorem attributedRoles_append (hs ks : List LoopHeader) :
    attributedRoles (hs ++ ks) = attributedRoles hs ++ attributedRoles ks := by
  simp [attributedRoles]

/-- A plain loop adds no role. -/
theorem attributedRoles_plain {h : LoopHeader} (hr : h.role = .plain) :
    attributedRoles [h] = [] := by
  simp [attributedRoles, hr, LoopRole.isAttributed]

/-- An outer loop adds its role. -/
theorem attributedRoles_outer {h : LoopHeader} (hr : h.role = .outer) :
    attributedRoles [h] = [.outer] := by
  simp [attributedRoles, hr, LoopRole.isAttributed]

/-- An inner loop adds its role. -/
theorem attributedRoles_inner {h : LoopHeader} (hr : h.role = .inner) :
    attributedRoles [h] = [.inner] := by
  simp [attributedRoles, hr, LoopRole.isAttributed]

namespace OuterThenInner

variable {roles : List LoopRole}

/-- No roles are in order. -/
theorem nil : OuterThenInner [] := ⟨0, 0, rfl, fun h => h⟩

/-- An outer loop may follow as long as there is no inner one. -/
theorem snoc_outer (h : OuterThenInner roles) (hno : LoopRole.inner ∉ roles) :
    OuterThenInner (roles ++ [.outer]) := by
  obtain ⟨a, b, rfl, _⟩ := h
  have hb : b = 0 := by
    apply Nat.eq_zero_of_not_pos
    intro hb
    exact hno (List.mem_append_right _ (List.mem_replicate.mpr ⟨by omega, rfl⟩))
  subst hb
  refine ⟨a + 1, 0, ?_, fun h => absurd h (Nat.lt_irrefl 0)⟩
  simp [List.replicate_succ']

/-- An inner loop may follow if there is a loop of one of the roles. -/
theorem snoc_inner (h : OuterThenInner roles)
    (hsome : LoopRole.inner ∈ roles ∨ LoopRole.outer ∈ roles) :
    OuterThenInner (roles ++ [.inner]) := by
  obtain ⟨a, b, rfl, hab⟩ := h
  refine ⟨a, b + 1, by simp [List.replicate_succ'], fun _ => ?_⟩
  rcases hsome with hmem | hmem <;>
    · simp only [List.mem_append, List.mem_replicate, reduceCtorEq, and_false, or_false,
        false_or, and_true] at hmem
      omega

/-- Nothing but outer loops stands around an outer loop. -/
theorem not_mem_inner (h : OuterThenInner (roles ++ [.outer])) : LoopRole.inner ∉ roles := by
  obtain ⟨a, b, heq, _⟩ := h
  intro hmem
  cases b with
  | zero =>
      rw [List.replicate_zero, List.append_nil] at heq
      have := List.eq_of_mem_replicate (heq ▸ List.mem_append_left _ hmem)
      cases this
  | succ b =>
      -- the last role cannot be both
      rw [List.replicate_succ', ← List.append_assoc] at heq
      have := (List.append_inj' heq rfl).2
      cases this

end OuterThenInner

namespace Nesting

/-- What is remembered of the loops above a statement is true of them. -/
structure Describes (above : Above) (hs : List LoopHeader) : Prop where
  outer : above.hasOuter = true ↔ LoopRole.outer ∈ attributedRoles hs
  inner : above.outermostInner.isSome = true ↔ LoopRole.inner ∈ attributedRoles hs

/-- At the start nothing is above. -/
theorem describes_nothing : Describes .nothing [] := by
  constructor <;> simp [Above.nothing, attributedRoles]

/-- What is above a point describes the loops on the way to it. -/
theorem Describes.enter {above : Above} {hs : List LoopHeader} (h : Describes above hs)
    (header : LoopHeader) : Describes (above.enter header) (hs ++ [header]) := by
  cases hr : header.role with
  | plain =>
      rw [Above.enter, hr]
      constructor
      · simpa [attributedRoles_append, attributedRoles_plain hr] using h.outer
      · simpa [attributedRoles_append, attributedRoles_plain hr] using h.inner
  | outer =>
      rw [Above.enter, hr]
      constructor
      · simp [attributedRoles_append, attributedRoles_outer hr]
      · simpa [attributedRoles_append, attributedRoles_outer hr] using h.inner
  | inner =>
      rw [Above.enter, hr]
      constructor
      · simpa [attributedRoles_append, attributedRoles_inner hr] using h.outer
      · simp [attributedRoles_append, attributedRoles_inner hr]

/-- **One step of a path.**  A loop without a problem continues the order of the
loops above it. -/
theorem ordered_enter {above : Above} {hs : List LoopHeader} {header : LoopHeader}
    (hdesc : Describes above hs) (hord : OuterThenInner (attributedRoles hs))
    (hok : above.problem? header = none) :
    OuterThenInner (attributedRoles (hs ++ [header])) := by
  rw [attributedRoles_append]
  cases hr : header.role with
  | plain => simpa [attributedRoles_plain hr] using hord
  | outer =>
      rw [attributedRoles_outer hr]
      apply hord.snoc_outer
      intro hmem
      obtain ⟨innerSpan, hsome⟩ := Option.isSome_iff_exists.mp (hdesc.inner.mpr hmem)
      simp [Above.problem?, hr, hsome] at hok
  | inner =>
      rw [attributedRoles_inner hr]
      apply hord.snoc_inner
      cases hinner : above.outermostInner with
      | some innerSpan => exact Or.inl (hdesc.inner.mp (by rw [hinner]; rfl))
      | none =>
          right
          apply hdesc.outer.mp
          simpa [Above.problem?, hr, hinner] using hok

/-- The problems of several statements, one statement after the other. -/
theorem hierarchyProblemsList_eq_flatMap (above : Above) (stmts : List Stmt) :
    hierarchyProblemsList above stmts = stmts.flatMap (hierarchyProblems above) := by
  induction stmts with
  | nil => rfl
  | cons s rest ih => rw [hierarchyProblemsList, ih, List.flatMap_cons]

/-- **Every path is in order** if the statement at its start has no problems with
the order of its loops, below loops that are in order. -/
theorem ordered_of_hierarchyProblems {s t : Stmt} {hs : List LoopHeader} (h : s.Path hs t) :
    ∀ {above : Above} {pre : List LoopHeader}, hierarchyProblems above s = [] →
      Describes above pre → OuterThenInner (attributedRoles pre) →
        OuterThenInner (attributedRoles (pre ++ hs)) := by
  induction h with
  | here => intro above pre _ _ hord; simpa using hord
  | block hmem _ ih =>
      intro above pre hok
      rw [hierarchyProblems, hierarchyProblemsList_eq_flatMap, List.flatMap_eq_nil_iff] at hok
      exact ih (hok _ hmem)
  | ifThen _ ih => intro above pre hok; exact ih hok
  | thenBranch _ ih =>
      intro above pre hok
      exact ih (List.append_eq_nil_iff.mp hok).1
  | elseBranch _ ih =>
      intro above pre hok
      exact ih (List.append_eq_nil_iff.mp hok).2
  | @forLoop header span body t hs _ ih =>
      intro above pre hok hdesc hord
      obtain ⟨hloop, hbody⟩ := List.append_eq_nil_iff.mp hok
      have hnone : above.problem? header = none := by simpa using hloop
      rw [List.append_cons]
      exact ih hbody (hdesc.enter header) (ordered_enter hdesc hord hnone)
  | whileLoop _ ih => intro above pre hok; exact ih hok
  | doWhile _ ih => intro above pre hok; exact ih hok
  | switch _ ih => intro above pre hok; exact ih hok

/-! ## The depth of a frontier -/

/-- The same for depth. -/
theorem depthProblemsList_eq_flatMap (stmts : List Stmt) :
    depthProblemsList stmts = stmts.flatMap depthProblems := by
  induction stmts with
  | nil => rfl
  | cons s rest ih => rw [depthProblemsList, ih, List.flatMap_cons]

/-- The inner loops on the frontier of several statements. -/
theorem inner_frontierList (stmts : List Stmt) :
    (frontierList stmts).inner = stmts.flatMap fun s => (frontier s).inner := by
  induction stmts with
  | nil => rfl
  | cons s rest ih => rw [frontierList, Frontier.append, ih, List.flatMap_cons]

/-- The outer loops on the frontier of several statements. -/
theorem outer_frontierList (stmts : List Stmt) :
    (frontierList stmts).outer = stmts.flatMap fun s => (frontier s).outer := by
  induction stmts with
  | nil => rfl
  | cons s rest ih => rw [frontierList, Frontier.append, ih, List.flatMap_cons]

/-- The problems below a statement include those below any statement inside it. -/
theorem depthProblems_of_path {s t : Stmt} {hs : List LoopHeader} (h : s.Path hs t)
    (hok : depthProblems s = []) : depthProblems t = [] := by
  induction h with
  | here => exact hok
  | block hmem _ ih =>
      rw [depthProblems, depthProblemsList_eq_flatMap, List.flatMap_eq_nil_iff] at hok
      exact ih (hok _ hmem)
  | ifThen _ ih => exact ih hok
  | thenBranch _ ih => exact ih (List.append_eq_nil_iff.mp hok).1
  | elseBranch _ ih => exact ih (List.append_eq_nil_iff.mp hok).2
  | forLoop _ ih => exact ih (List.append_eq_nil_iff.mp hok).1
  | whileLoop _ ih => exact ih hok
  | doWhile _ ih => exact ih hok
  | switch _ ih => exact ih hok

/-- An attributed loop without problems below it has a frontier without problems. -/
theorem frontier_problems_of_loop {header : LoopHeader} {body : Stmt} {span : Span}
    (hok : depthProblems (.forLoop header body span) = [])
    (hrole : header.role.isAttributed) : (frontier body).problems = [] := by
  simpa [hrole] using (List.append_eq_nil_iff.mp hok).2

/-- Siblings without problems have one depth. -/
theorem depth_eq_of_siblingProblems {ls : List FrontierLoop} (hok : siblingProblems ls = [])
    {l l' : FrontierLoop} (hl : l ∈ ls) (hl' : l' ∈ ls) : l.depth = l'.depth := by
  cases ls with
  | nil => cases hl
  | cons first rest =>
      have hfirst : ∀ k ∈ first :: rest, k.depth = first.depth := by
        intro k hk
        rcases List.mem_cons.mp hk with rfl | hk
        · rfl
        · simp only [siblingProblems, List.map_eq_nil_iff, List.filter_eq_nil_iff] at hok
          simpa using hok k hk
      rw [hfirst l hl, hfirst l' hl']

/-- The deepest of several loops, where nothing is known about a bound so far. -/
theorem foldl_max_depth (ls : List FrontierLoop) (n : Nat) :
    ls.foldl (fun n l => max n l.depth) n = max n (ls.foldl (fun n l => max n l.depth) 0) := by
  induction ls generalizing n with
  | nil => simp
  | cons l rest ih =>
      rw [List.foldl_cons, List.foldl_cons, ih, ih (max 0 l.depth)]
      omega

/-- The depth of two frontiers is the greater one of both. -/
theorem innerDepth_append (a b : Frontier) :
    (a.append b).innerDepth = max a.innerDepth b.innerDepth := by
  unfold Frontier.innerDepth Frontier.append
  rw [List.foldl_append, foldl_max_depth]

/-- A frontier of one depth is as deep as each of its inner loops. -/
theorem innerDepth_eq_of_mem {fr : Frontier} (hok : siblingProblems fr.inner = [])
    {l : FrontierLoop} (hl : l ∈ fr.inner) : fr.innerDepth = l.depth := by
  have hall : ∀ k ∈ fr.inner, k.depth = l.depth := fun k hk =>
    depth_eq_of_siblingProblems hok hk hl
  have hfold : ∀ ls : List FrontierLoop, ls ≠ [] → (∀ k ∈ ls, k.depth = l.depth) →
      ls.foldl (fun n k => max n k.depth) 0 = l.depth := by
    intro ls hne hdepth
    induction ls with
    | nil => exact absurd rfl hne
    | cons k rest ih =>
        rw [List.foldl_cons, foldl_max_depth, hdepth k List.mem_cons_self]
        by_cases hrest : rest = []
        · simp [hrest]
        · rw [ih hrest fun k hk => hdepth k (List.mem_cons_of_mem _ hk)]
          omega
  exact hfold fr.inner (List.ne_nil_of_mem hl) hall

mutual

/-- The depth of a frontier is the number of levels of inner loops. -/
theorem innerDepth_frontier : ∀ s : Stmt, (frontier s).innerDepth = s.innerLevels
  | .expr .. | .decl .. | .caseLabel .. | .breakJump .. | .continueJump .. | .returnJump ..
  | .empty .. => rfl
  | .block stmts _ _ => innerDepth_frontierList stmts
  | .ifThen _ a _ => innerDepth_frontier a
  | .ifElse _ a b _ => by
      rw [frontier, Stmt.innerLevels, innerDepth_append, innerDepth_frontier a,
        innerDepth_frontier b]
  | .forLoop header body _ => by
      have ih := innerDepth_frontier body
      rw [frontier, Stmt.innerLevels]
      cases hr : header.role with
      | plain => simpa [LoopRole.isAttributed] using ih
      | outer => simp [LoopRole.isAttributed, Frontier.add, hr, Frontier.empty,
          Frontier.innerDepth]
      | inner =>
          simp only [LoopRole.isAttributed, Frontier.add, hr, ih]
          simp [Frontier.empty, Frontier.innerDepth]
  | .whileLoop _ body _ | .doWhile body _ _ | .switch _ body _ => innerDepth_frontier body

/-- The same for several statements. -/
theorem innerDepth_frontierList : ∀ stmts : List Stmt,
    (frontierList stmts).innerDepth = Stmt.innerLevelsList stmts
  | [] => rfl
  | s :: rest => by
      rw [frontierList, Stmt.innerLevelsList, innerDepth_append, innerDepth_frontier s,
        innerDepth_frontierList rest]

end

mutual

/-- If there are levels of inner loops in a statement, then a path that enters no
outer loop leads to an inner loop. -/
theorem exists_path_of_innerLevels : ∀ s : Stmt, s.innerLevels ≠ 0 →
    ∃ hs inner core span, s.Path hs (.forLoop inner core span) ∧ inner.role = .inner ∧
      ∀ h ∈ hs, h.role ≠ .outer
  | .expr .., h | .decl .., h | .caseLabel .., h | .breakJump .., h | .continueJump .., h
  | .returnJump .., h | .empty .., h => absurd rfl h
  | .block stmts _ _, h => by
      obtain ⟨s, hmem, hs, inner, core, span, hpath, hrest⟩ :=
        exists_path_of_innerLevelsList stmts h
      exact ⟨hs, inner, core, span, .block hmem hpath, hrest⟩
  | .ifThen _ a _, h => by
      obtain ⟨hs, inner, core, span, hpath, hrest⟩ := exists_path_of_innerLevels a h
      exact ⟨hs, inner, core, span, .ifThen hpath, hrest⟩
  | .ifElse _ a b _, h => by
      by_cases ha : a.innerLevels = 0
      · have hb : b.innerLevels ≠ 0 := by
          intro hb
          exact h (by rw [Stmt.innerLevels, ha, hb]; rfl)
        obtain ⟨hs, inner, core, span, hpath, hrest⟩ := exists_path_of_innerLevels b hb
        exact ⟨hs, inner, core, span, .elseBranch hpath, hrest⟩
      · obtain ⟨hs, inner, core, span, hpath, hrest⟩ := exists_path_of_innerLevels a ha
        exact ⟨hs, inner, core, span, .thenBranch hpath, hrest⟩
  | .forLoop header body span, h => by
      rw [Stmt.innerLevels] at h
      cases hr : header.role with
      | plain =>
          rw [hr] at h
          obtain ⟨hs, inner, core, span', hpath, hinner, hrest⟩ :=
            exists_path_of_innerLevels body h
          refine ⟨header :: hs, inner, core, span', .forLoop hpath, hinner, ?_⟩
          intro k hk
          rcases List.mem_cons.mp hk with rfl | hk
          · simp [hr]
          · exact hrest k hk
      | outer => rw [hr] at h; exact absurd rfl h
      | inner => exact ⟨[], header, body, span, .here _, hr, by simp⟩
  | .whileLoop _ body _, h => by
      obtain ⟨hs, inner, core, span, hpath, hrest⟩ := exists_path_of_innerLevels body h
      exact ⟨hs, inner, core, span, .whileLoop hpath, hrest⟩
  | .doWhile body _ _, h => by
      obtain ⟨hs, inner, core, span, hpath, hrest⟩ := exists_path_of_innerLevels body h
      exact ⟨hs, inner, core, span, .doWhile hpath, hrest⟩
  | .switch _ body _, h => by
      obtain ⟨hs, inner, core, span, hpath, hrest⟩ := exists_path_of_innerLevels body h
      exact ⟨hs, inner, core, span, .switch hpath, hrest⟩

/-- The same for several statements. -/
theorem exists_path_of_innerLevelsList : ∀ stmts : List Stmt, Stmt.innerLevelsList stmts ≠ 0 →
    ∃ s ∈ stmts, ∃ hs inner core span, s.Path hs (.forLoop inner core span) ∧
      inner.role = .inner ∧ ∀ h ∈ hs, h.role ≠ .outer
  | [], h => absurd rfl h
  | s :: rest, h => by
      by_cases hs : s.innerLevels = 0
      · have hrest : Stmt.innerLevelsList rest ≠ 0 := by
          intro hrest
          exact h (by rw [Stmt.innerLevelsList, hs, hrest]; rfl)
        obtain ⟨t, hmem, hpath⟩ := exists_path_of_innerLevelsList rest hrest
        exact ⟨t, List.mem_cons_of_mem _ hmem, hpath⟩
      · exact ⟨s, List.mem_cons_self, exists_path_of_innerLevels s hs⟩

end

/-- Without inner loops there are no inner levels. -/
theorem innerLevels_eq_zero {s : Stmt} (h : ∀ header ∈ s.loops, header.role ≠ .inner) :
    s.innerLevels = 0 := by
  apply Classical.byContradiction
  intro hne
  obtain ⟨hs, inner, core, span, hpath, hinner, _⟩ := exists_path_of_innerLevels s hne
  exact h inner (hpath.mem_loops List.mem_cons_self) hinner

/-- **The innermost loops of a frontier.**  If a path that enters no outer loop
leads to an inner loop without further inner loops in it, then the frontier
holds a loop whose depth is the number of inner loops on that path.  The
induction is on the path: on the way out of an inner loop the number grows by
one, and so does the depth, because the frontier below the loop has one depth. -/
theorem exists_frontierLoop_of_innermost {s core : Stmt} {hs : List LoopHeader}
    {inner : LoopHeader} {span : Span} (hpath : s.Path hs (.forLoop inner core span))
    (hinner : inner.role = .inner) (hcore : ∀ h ∈ core.loops, h.role ≠ .inner)
    (houter : ∀ h ∈ hs, h.role ≠ .outer) (hok : depthProblems s = []) :
    ∃ l ∈ (frontier s).inner, l.depth = innerCount (hs ++ [inner]) := by
  generalize ht : Stmt.forLoop inner core span = t at hpath
  induction hpath with
  | here =>
      subst ht
      refine ⟨⟨inner.span, (frontier core).innerDepth + 1⟩, ?_, ?_⟩
      · simp [frontier, hinner, LoopRole.isAttributed, Frontier.add, Frontier.empty]
      · simp [innerDepth_frontier, innerLevels_eq_zero hcore, innerCount, hinner]
  | block hmem _ ih =>
      rw [depthProblems, depthProblemsList_eq_flatMap, List.flatMap_eq_nil_iff] at hok
      obtain ⟨l, hl, hdepth⟩ := ih houter (hok _ hmem) ht
      refine ⟨l, ?_, hdepth⟩
      rw [frontier, inner_frontierList]
      exact List.mem_flatMap.mpr ⟨_, hmem, hl⟩
  | ifThen _ ih => exact ih houter hok ht
  | thenBranch _ ih =>
      obtain ⟨l, hl, hdepth⟩ := ih houter (List.append_eq_nil_iff.mp hok).1 ht
      exact ⟨l, List.mem_append_left _ hl, hdepth⟩
  | elseBranch _ ih =>
      obtain ⟨l, hl, hdepth⟩ := ih houter (List.append_eq_nil_iff.mp hok).2 ht
      exact ⟨l, List.mem_append_right _ hl, hdepth⟩
  | @forLoop header _ body _ hs _ ih =>
      have hbody := (List.append_eq_nil_iff.mp hok).1
      obtain ⟨l, hl, hdepth⟩ := ih (fun h hh => houter h (List.mem_cons_of_mem _ hh)) hbody ht
      cases hr : header.role with
      | plain =>
          refine ⟨l, ?_, ?_⟩
          · simpa [frontier, hr, LoopRole.isAttributed] using hl
          · simpa [innerCount, hr] using hdepth
      | outer => exact absurd hr (houter header List.mem_cons_self)
      | inner =>
          have hsiblings : siblingProblems (frontier body).inner = [] :=
            (List.append_eq_nil_iff.mp
              (frontier_problems_of_loop hok (by rw [hr]; rfl))).1
          refine ⟨⟨header.span, (frontier body).innerDepth + 1⟩, ?_, ?_⟩
          · simp [frontier, hr, LoopRole.isAttributed, Frontier.add, Frontier.empty]
          · change (frontier body).innerDepth + 1 = _
            rw [innerDepth_eq_of_mem hsiblings hl, hdepth]
            simp [innerCount, hr]
  | whileLoop _ ih => exact ih houter hok ht
  | doWhile _ ih => exact ih houter hok ht
  | switch _ ih => exact ih houter hok ht

/-- An outer loop that is reached through plain loops only is on the frontier. -/
theorem mem_frontier_outer {s core : Stmt} {hs : List LoopHeader} {outer : LoopHeader}
    {span : Span} (hpath : s.Path hs (.forLoop outer core span)) (houter : outer.role = .outer)
    (hplain : ∀ h ∈ hs, h.role = .plain) :
    ⟨outer.span, core.innerLevels⟩ ∈ (frontier s).outer := by
  generalize ht : Stmt.forLoop outer core span = t at hpath
  induction hpath with
  | here =>
      subst ht
      simp [frontier, houter, LoopRole.isAttributed, Frontier.add, Frontier.empty,
        innerDepth_frontier]
  | block hmem _ ih =>
      rw [frontier, outer_frontierList]
      exact List.mem_flatMap.mpr ⟨_, hmem, ih hplain ht⟩
  | ifThen _ ih => exact ih hplain ht
  | thenBranch _ ih => exact List.mem_append_left _ (ih hplain ht)
  | elseBranch _ ih => exact List.mem_append_right _ (ih hplain ht)
  | @forLoop header _ body _ hs _ ih =>
      have hr := hplain header List.mem_cons_self
      have hbody := ih (fun h hh => hplain h (List.mem_cons_of_mem _ hh)) ht
      simpa [frontier, hr, LoopRole.isAttributed] using hbody
  | whileLoop _ ih => exact ih hplain ht
  | doWhile _ ih => exact ih hplain ht
  | switch _ ih => exact ih hplain ht

/-! ## The kernel as a whole -/

/-- A kernel that lacks no level has loops of both. -/
theorem exists_loops_of_presence {kernel : Function} (hok : presenceProblems kernel = []) :
    (∃ h ∈ kernel.loops, h.role = .outer) ∧ ∃ h ∈ kernel.loops, h.role = .inner := by
  have hnone : missingLevel? kernel.loops = none := by
    simpa [presenceProblems] using hok
  unfold missingLevel? at hnone
  split at hnone <;> simp_all

/-- Any path in a kernel without hierarchy problems is in order. -/
theorem ordered_of_kernel {kernel : Function}
    (hok : hierarchyProblemsList .nothing kernel.body.stmts = []) {hs : List LoopHeader}
    {t : Stmt} (hpath : kernel.Path hs t) : OuterThenInner (attributedRoles hs) := by
  obtain ⟨s, hmem, hpath⟩ := hpath
  rw [hierarchyProblemsList_eq_flatMap, List.flatMap_eq_nil_iff] at hok
  exact ordered_of_hierarchyProblems hpath (hok s hmem) describes_nothing OuterThenInner.nil

/-- If nothing is reported for depth in a kernel, nothing is below any of its statements. -/
theorem depthProblems_of_kernel {kernel : Function}
    (hok : depthProblemsList kernel.body.stmts = []) {hs : List LoopHeader} {t : Stmt}
    (hpath : kernel.Path hs t) : depthProblems t = [] := by
  obtain ⟨s, hmem, hpath⟩ := hpath
  rw [depthProblemsList_eq_flatMap, List.flatMap_eq_nil_iff] at hok
  exact depthProblems_of_path hpath (hok s hmem)

/-- No inner loop stands around an outer loop of a kernel without hierarchy problems. -/
theorem innerCount_above_outer {kernel : Function}
    (hok : hierarchyProblemsList .nothing kernel.body.stmts = []) {above : List LoopHeader}
    {outer : LoopHeader} {body : Stmt} {span : Span}
    (hpath : kernel.Path above (.forLoop outer body span)) (houter : outer.role = .outer) :
    innerCount above = 0 := by
  have hord := ordered_of_kernel hok (hpath.trans (.forLoop (.here body)))
  rw [attributedRoles_append, attributedRoles_outer houter] at hord
  have hno := hord.not_mem_inner
  rw [innerCount, List.countP_eq_zero]
  intro h hh hinner
  apply hno
  have hrole : h.role = .inner := by simpa using hinner
  exact List.mem_filter.mpr ⟨List.mem_map.mpr ⟨h, hh, hrole⟩, rfl⟩

end Nesting

/-- **Nesting is sound.**  A kernel in which the rules on nesting find nothing,
whether one problem is wanted or all are, is well nested. -/
theorem nesting_sound (s : Subject) (extent : Extent)
    (hok : (Stage.nesting s (.empty extent)).problems = []) : WellNested s.kernel := by
  rw [(Stage.nesting_finds s).eq_nil_iff, Subject.nestingProblems, List.append_eq_nil_iff,
    List.append_eq_nil_iff] at hok
  obtain ⟨hpresence, hhierarchy, hdepth⟩ := hok
  obtain ⟨⟨outer, houter, houterRole⟩, inner, hinner, hinnerRole⟩ :=
    Nesting.exists_loops_of_presence hpresence
  constructor
  case hasOuter =>
    obtain ⟨hs, body, span, hpath⟩ := Function.mem_loops_iff.mp houter
    exact ⟨hs, outer, body, span, hpath, houterRole⟩
  case hasInner =>
    obtain ⟨hs, body, span, hpath⟩ := Function.mem_loops_iff.mp hinner
    exact ⟨hs, inner, body, span, hpath, hinnerRole⟩
  case ordered =>
    intro hs t hpath
    exact Nesting.ordered_of_kernel hhierarchy hpath
  case levels =>
    intro above outer body span hpath houter between inner core span' hpath' hinner hbetween hcore
    have hloop := Nesting.depthProblems_of_kernel hdepth hpath
    have hsiblings : Nesting.siblingProblems (Nesting.frontier body).inner = [] :=
      (List.append_eq_nil_iff.mp
        (Nesting.frontier_problems_of_loop hloop (by rw [houter]; rfl))).1
    obtain ⟨l, hl, hl'⟩ := Nesting.exists_frontierLoop_of_innermost hpath' hinner hcore hbetween
      (List.append_eq_nil_iff.mp hloop).1
    have habove := Nesting.innerCount_above_outer hhierarchy hpath houter
    calc innerCount (above ++ outer :: between ++ [inner])
        = innerCount above + innerCount (between ++ [inner]) := by
          simp [innerCount, List.countP_append, List.countP_cons, houter]
      _ = l.depth := by rw [habove, hl', Nat.zero_add]
      _ = (Nesting.frontier body).innerDepth := (Nesting.innerDepth_eq_of_mem hsiblings hl).symm
      _ = body.innerLevels := Nesting.innerDepth_frontier body
  case noLevels =>
    intro above outer body span _ _ hnone
    apply Classical.byContradiction
    intro hne
    obtain ⟨hs, inner, core, span', hpath, hinner, hplain⟩ :=
      Nesting.exists_path_of_innerLevels body hne
    obtain ⟨h, hh, hrole⟩ := hnone hs inner core span' hpath hinner
    exact hplain h hh hrole
  case siblings =>
    intro above container body span hpath hcontainer between outer core span' between' outer'
      core' span'' hpath₁ houter₁ hplain₁ hpath₂ houter₂ hplain₂
    have hloop := Nesting.depthProblems_of_kernel hdepth hpath
    have hsiblings : Nesting.siblingProblems (Nesting.frontier body).outer = [] :=
      (List.append_eq_nil_iff.mp (Nesting.frontier_problems_of_loop hloop hcontainer)).2
    exact Nesting.depth_eq_of_siblingProblems hsiblings
      (Nesting.mem_frontier_outer hpath₁ houter₁ hplain₁)
      (Nesting.mem_frontier_outer hpath₂ houter₂ hplain₂)

/-- A loop with one marker, or none, and no clauses. -/
def Stmt.markedLoop (kind : Option MarkerKind) (body : List Stmt) : Stmt :=
  let span : Span := ⟨0, 1⟩
  .forLoop ⟨none, none, none, kind.toList.map (Marker.mk · span), span⟩
    (.block body span span) span

/-- Two outer loops in an outer loop, each with two levels of inner loops, once
below a branch and once below a plain loop. -/
def Function.gridSample : Function :=
  let span : Span := ⟨0, 1⟩
  let levels := Stmt.markedLoop (some .inner) [.markedLoop (some .inner) []]
  let left := Stmt.markedLoop (some .outer) [.ifElse (.int 0 span) levels levels span]
  let right := Stmt.markedLoop (some .outer) [.whileLoop (.int 0 span) levels span, levels]
  ⟨.empty, [], { base := .void }, ⟨[.markedLoop (some .outer) [left, .markedLoop none [right]]],
    span⟩, [], span⟩

/-- The sample has no nesting problems, although all its loops have one span. -/
theorem nesting_sound_gridSample :
    (Stage.nesting ⟨.gridSample, .initial, .empty⟩ (.empty .all)).problems = [] ∧
      WellNested .gridSample :=
  ⟨by decide, nesting_sound ⟨.gridSample, .initial, .empty⟩ .all (by decide)⟩

end KernelCheck
