import KernelCheck.Proofs.Building.Tidy
import KernelCheck.Proofs.Loading.Names
import KernelCheck.Syntax.Builder

/-!
# Grids are accepted

A builder has methods for the loops of a grid, and a kernel that is made with these in the
order that the grid asks for should pass.

1. The predicates `Ordinary`, `Nest`, `GroupDecl`, `Group` and `Grid` are closed under the
   methods that may be used at each place.  The builder may be in any state at each call, so
   names may be repeated and shadowed at will.
2. The header of a canonical loop is in order, since its three clauses are about one name
   (`exists_markedFor`).
3. Ordinary statements carry no markers, hence only their jumps are in question, and those
   are bound inside (`Ordinary.jumps`).
4. Each inner loop is one level more for the loops around it (`fits_inner`), and so a nest
   fits among nests of its depth, by induction on the levels (`Nest.fits`).
5. A group stands at the top of the kernel, and needs nothing from there (`Group.quiet`).

`grids_accepted` puts the five families of rules together.
-/

namespace KernelCheck

namespace Builder

/-! ## Grids -/

/-- What may stand in the innermost loop of a grid: statements without markers, in which a
`break` stands only where one is bound inside (`canBreak`), and a `continue` likewise. -/
inductive Ordinary : (canBreak canContinue : Bool) → Stmt → Prop
  | exprStmt {x y} (b : Builder) (e : Expr) : Ordinary x y ((exprStmt e).run b).1
  | declStmt {x y} (b : Builder) {d : Declaration} (unmarked : d.markers = []) :
      Ordinary x y ((declStmt d).run b).1
  | returnJump {x y} (b : Builder) (value : Option Expr) :
      Ordinary x y ((returnJump value).run b).1
  | caseLabel {x y} (b : Builder) (value : Option Expr) : Ordinary x y ((caseLabel value).run b).1
  | empty {x y} (b : Builder) : Ordinary x y (empty.run b).1
  | breakJump {y} (b : Builder) : Ordinary true y (breakJump.run b).1
  | continueJump {x} (b : Builder) : Ordinary x true (continueJump.run b).1
  | block {x y} (b : Builder) {stmts : List Stmt} (h : ∀ s ∈ stmts, Ordinary x y s) :
      Ordinary x y ((block stmts).run b).1
  | ifStmt {x y} (b : Builder) (c : Expr) {stmts : List Stmt} {orElse : Option (List Stmt)}
      (h : ∀ s ∈ stmts, Ordinary x y s) (h' : ∀ others ∈ orElse, ∀ s ∈ others, Ordinary x y s) :
      Ordinary x y ((ifStmt c stmts orElse).run b).1
  | switch {x y} (b : Builder) (e : Expr) {body : List Stmt} (h : ∀ s ∈ body, Ordinary true y s) :
      Ordinary x y ((switch e body).run b).1
  | whileLoop {x y} (b : Builder) (c : Expr) {body : List Stmt}
      (h : ∀ s ∈ body, Ordinary true true s) : Ordinary x y ((whileLoop c body).run b).1
  | doWhile {x y} (b : Builder) (c : Expr) {body : List Stmt}
      (h : ∀ s ∈ body, Ordinary true true s) : Ordinary x y ((doWhile body c).run b).1
  | plainFor {x y} (b : Builder) (var : String) (bound : Int) {body : List Stmt}
      (h : ∀ s ∈ body, Ordinary true true s) : Ordinary x y ((plainFor var bound body).run b).1

/-- `Nest d s`: a nest of `d` levels of inner loops, with ordinary statements in the last. -/
inductive Nest : Nat → Stmt → Prop
  | innermost (b : Builder) (var : String) (bound : Int) {body : List Stmt}
      (h : ∀ s ∈ body, Ordinary false false s) : Nest 1 ((inner var bound body).run b).1
  | around {d : Nat} (b : Builder) (var : String) (bound : Int) {nests : List Stmt}
      (nonempty : nests ≠ []) (h : ∀ s ∈ nests, Nest d s) :
      Nest (d + 1) ((inner var bound nests).run b).1

/-- A variable of a group: a shared array, sized by integer literals, or an exclusive one. -/
inductive GroupDecl : Stmt → Prop
  | shared (b : Builder) (s : String) {dims : List Expr}
      (literal : ∀ e ∈ dims, ∃ (b : Builder) (value : Int), e = ((int value).run b).1) :
      GroupDecl ((shared s dims).run b).1
  | exclusive (b : Builder) (s : String) : GroupDecl ((exclusive s).run b).1

/-- An outer loop with the variables of the group and nests of one depth. -/
inductive Group : Stmt → Prop
  | outer (d : Nat) (b : Builder) (var : String) (bound : Int) {decls nests : List Stmt}
      (hdecls : ∀ s ∈ decls, GroupDecl s) (nonempty : nests ≠ []) (h : ∀ s ∈ nests, Nest d s) :
      Group ((outer var bound (decls ++ nests)).run b).1

/-- A kernel of groups, to which parameters may be added. -/
inductive Grid : Function → Prop
  | kernel (b : Builder) (s : String) {groups : List Stmt} (nonempty : groups ≠ [])
      (h : ∀ s ∈ groups, Group s) : Grid ((kernel s groups).run b).1
  | param {f : Function} (h : Grid f) (p : Param) : Grid { f with params := f.params ++ [p] }

/-! ## Canonical loops -/

/-- The header declares one integer variable, compares it and counts it up. -/
structure Counts (h : LoopHeader) (var : Name) : Prop where
  init : ∃ s s' s'', h.init =
    some (.decl ⟨{ base := .int }, [⟨var, [], some (.int 0 s), s'⟩], [], s''⟩)
  test : ∃ bound s s', h.test = some (.binary .lt (.ident var s) bound s')
  update : ∃ s s', h.update = some (.unary .preInc (.ident var s) s')

/-- The declaration in the header of a counting loop has no markers. -/
theorem Counts.initSites {h : LoopHeader} {var : Name} (hc : Counts h var) :
    ∀ site ∈ h.initSites, site.markers = [] := by
  obtain ⟨s, s', s'', hinit⟩ := hc.init
  intro site hsite
  rw [LoopHeader.initSites, hinit] at hsite
  obtain rfl := List.mem_singleton.mp hsite
  rfl

/-- The shape of a counting loop is accepted, and its variable is the counted one. -/
theorem Counts.shape {h : LoopHeader} {var : Name} (hc : Counts h var) (t : Interner) :
    h.shape t = .ok var := by
  obtain ⟨s, s', s'', hinit⟩ := hc.init
  obtain ⟨bound, u, u', htest⟩ := hc.test
  obtain ⟨v, v', hupdate⟩ := hc.update
  have hinduction : h.inductionProblem t = (none, some var) := by
    simp [LoopHeader.inductionProblem, LoopHeader.induction, hinit, CType.isIntegral,
      BaseType.isIntegerKeyword]
  have htestProblem : h.testProblem? var = none := by
    simp [LoopHeader.testProblem?, LoopHeader.testIssue?, htest, BinaryOp.isRelational,
      Expr.ident?]
  have hupdateProblem : h.updateProblem? var = none := by
    simp [LoopHeader.updateProblem?, LoopHeader.updateIssue?, hupdate, Expr.stepIssue?,
      UnaryOp.isStep, Expr.ident?]
  simp [LoopHeader.shape, hinduction, htestProblem, hupdateProblem]

/-- A counting loop has no problems with its header. -/
theorem Counts.shapeProblems {h : LoopHeader} {var : Name} (hc : Counts h var) (t : Interner) :
    h.shapeProblems t = [] := by
  rw [LoopHeader.shapeProblems, hc.shape t, ite_self]

/-- The markers that are built have the wanted kinds. -/
theorem kinds_markers (kinds : List MarkerKind) (b : Builder) :
    ((kinds.mapM marker).run b).1.map (·.kind) = kinds := by
  induction kinds generalizing b with
  | nil => rfl
  | cons kind rest ih =>
      rw [List.mapM_cons]
      exact congrArg (kind :: ·) (ih _)

/-- The init clause of a counting loop, as it is built. -/
theorem run_induction (b : Builder) (var : String) :
    ∃ s s' s'', (induction var).run b =
      (.decl ⟨{ base := .int }, [⟨(b.names.intern var).1, [], some (.int 0 s), s'⟩], [], s''⟩,
        ⟨b.nextOffset + 6, (b.names.intern var).2⟩) :=
  ⟨_, _, _, rfl⟩

/-- The test of a counting loop, as it is built. -/
theorem run_lt (b : Builder) (var : String) (bound : Expr) :
    ∃ s s', (lt var bound).run b =
      (.binary .lt (.ident (b.names.intern var).1 s) bound s',
        ⟨b.nextOffset + 4, (b.names.intern var).2⟩) :=
  ⟨_, _, rfl⟩

/-- The update of a counting loop, as it is built. -/
theorem run_preInc (b : Builder) (var : String) :
    ∃ s s', (preInc var).run b =
      (.unary .preInc (.ident (b.names.intern var).1 s) s',
        ⟨b.nextOffset + 4, (b.names.intern var).2⟩) :=
  ⟨_, _, rfl⟩

/-- The clauses are built one after the other, so all of them name one variable. -/
theorem exists_canonicalFor (b : Builder) (var : String) (bound : Expr) (ms : List Marker)
    (body : List Stmt) :
    ∃ header blockSpan bodySpan span, ((canonicalFor var bound ms body).run b).1 =
        .forLoop header (.block body blockSpan bodySpan) span ∧
      header.markers = ms ∧ ∃ n, Counts header n := by
  let init := (induction var).run b
  let test := (lt var bound).run init.2
  let update := (preInc var).run test.2
  have hrun : (canonicalFor var bound ms body).run b =
      (forLoop (some init.1) (some test.1) (some update.1) ms body).run update.2 := rfl
  obtain ⟨s, s', s'', hinit⟩ := run_induction b var
  obtain ⟨u, u', htest⟩ := run_lt ⟨b.nextOffset + 6, (b.names.intern var).2⟩ var bound
  obtain ⟨v, v', hupdate⟩ := run_preInc ⟨b.nextOffset + 6 + 4, (b.names.intern var).2⟩ var
  -- the second and the third clause ask for a name that the first one has made
  have hsame : (b.names.intern var).2.intern var =
      ((b.names.intern var).1, (b.names.intern var).2) :=
    Interner.intern_of_get? (b.names.get?_intern var)
  simp only [hsame] at htest hupdate
  simp only [init, test, update, hinit, htest, hupdate] at hrun
  rw [hrun]
  exact ⟨_, _, _, _, rfl, rfl, _, ⟨_, _, _, rfl⟩, ⟨_, _, _, rfl⟩, ⟨_, _, rfl⟩⟩

/-- A canonical loop carries markers of the given kinds. -/
theorem exists_markedFor (b : Builder) (kinds : List MarkerKind) (var : String) (bound : Int)
    (body : List Stmt) :
    ∃ header blockSpan bodySpan span, ((markedFor kinds var bound body).run b).1 =
        .forLoop header (.block body blockSpan bodySpan) span ∧
      header.markers.map (·.kind) = kinds ∧ ∃ n, Counts header n := by
  have hcanonical := exists_canonicalFor ((kinds.mapM marker).run ((int bound).run b).2).2 var
    ((int bound).run b).1 ((kinds.mapM marker).run ((int bound).run b).2).1 body
  obtain ⟨header, blockSpan, bodySpan, span, hrun, hmarkers, hcounts⟩ := hcanonical
  refine ⟨header, blockSpan, bodySpan, span, hrun, ?_, hcounts⟩
  rw [hmarkers, kinds_markers]

/-! ## Ordinary statements -/

/-- The places for markers in several statements are those in each of them. -/
theorem mem_markerSitesList {site : MarkerSite} {stmts : List Stmt} :
    site ∈ Stmt.markerSitesList stmts ↔ ∃ s ∈ stmts, site ∈ s.markerSites := by
  rw [Stmt.markerSitesList_eq_flatMap, List.mem_flatMap]

/-- Statements without markers have none together. -/
theorem unmarked_list {stmts : List Stmt} (h : ∀ s ∈ stmts, s.Unmarked) :
    ∀ site ∈ Stmt.markerSitesList stmts, site.markers = [] := by
  intro site hsite
  obtain ⟨s, hs, hsite⟩ := mem_markerSitesList.mp hsite
  exact h s hs site hsite

/-- Ordinary statements carry no markers: induction on how they are built. -/
theorem Ordinary.unmarked {x y : Bool} {s : Stmt} (h : Ordinary x y s) : s.Unmarked := by
  induction h with
  | exprStmt | returnJump | caseLabel | empty | breakJump | continueJump =>
      exact fun _ hsite => nomatch hsite
  | declStmt b hd =>
      intro site hsite
      obtain rfl := List.mem_singleton.mp hsite
      exact hd
  | block b h ih => exact unmarked_list ih
  | @ifStmt x y b c stmts orElse h h' ih ih' =>
      have hthen := unmarked_list ih
      cases orElse with
      | none => exact hthen
      | some others =>
          have helse := unmarked_list (ih' others rfl)
          intro site hsite
          rcases List.mem_append.mp hsite with hsite | hsite
          · exact hthen site hsite
          · exact helse site hsite
  | switch b e h ih => exact unmarked_list ih
  | whileLoop b c h ih => exact unmarked_list ih
  | doWhile b c h ih => exact unmarked_list ih
  | @plainFor x y b var bound body h ih =>
      obtain ⟨header, blockSpan, bodySpan, span, hrun, hkinds, n, hcounts⟩ :=
        exists_markedFor b [] var bound body
      rw [Builder.plainFor, hrun]
      intro site hsite
      rw [Stmt.markerSites, List.mem_cons, List.mem_append] at hsite
      rcases hsite with rfl | hsite | hsite
      · exact List.map_eq_nil_iff.mp hkinds
      · exact hcounts.initSites site hsite
      · exact unmarked_list ih site hsite

/-- Statements without bad jumps have none together. -/
theorem jumps_list {targets : List JumpTarget} {stmts : List Stmt}
    (h : ∀ s ∈ stmts, Jumps.problems targets s = []) : Jumps.problemsList targets stmts = [] := by
  induction stmts with
  | nil => rfl
  | cons s rest ih =>
      rw [Jumps.problemsList, h s List.mem_cons_self,
        ih fun s hs => h s (List.mem_cons_of_mem _ hs)]
      rfl

/-- **The jumps of an ordinary statement** are in order inside targets for which those jumps
are that may be bound further out. -/
theorem Ordinary.jumps {x y : Bool} {s : Stmt} (h : Ordinary x y s) :
    ∀ targets : List JumpTarget, (x = true → ∀ span, Jumps.breakProblem? targets span = none) →
      (y = true → ∀ span, Jumps.continueProblem? targets span = none) →
        Jumps.problems targets s = [] := by
  induction h with
  | exprStmt | declStmt | returnJump | caseLabel | empty => exact fun _ _ _ => rfl
  | breakJump b =>
      intro targets hbreak _
      exact congrArg Option.toList (hbreak rfl _)
  | continueJump b =>
      intro targets _ hcontinue
      exact congrArg Option.toList (hcontinue rfl _)
  | block b h ih =>
      intro targets hbreak hcontinue
      exact jumps_list fun s hs => ih s hs targets hbreak hcontinue
  | @ifStmt x y b c stmts orElse h h' ih ih' =>
      intro targets hbreak hcontinue
      have hthen := jumps_list fun s hs => ih s hs targets hbreak hcontinue
      cases orElse with
      | none => exact hthen
      | some others =>
          have helse := jumps_list fun s hs => ih' others rfl s hs targets hbreak hcontinue
          exact List.append_eq_nil_iff.mpr ⟨hthen, helse⟩
  | switch b e h ih =>
      -- a `break` is bound by the switch, and a `continue` passes it
      intro targets _ hcontinue
      exact jumps_list fun s hs => ih s hs (.switch :: targets) (fun _ _ => rfl) hcontinue
  | whileLoop b c h ih =>
      intro targets _ _
      exact jumps_list fun s hs => ih s hs _ (fun _ _ => rfl) fun _ _ => rfl
  | doWhile b c h ih =>
      intro targets _ _
      exact jumps_list fun s hs => ih s hs _ (fun _ _ => rfl) fun _ _ => rfl
  | @plainFor x y b var bound body h ih =>
      intro targets _ _
      obtain ⟨header, blockSpan, bodySpan, span, hrun, hkinds, -⟩ :=
        exists_markedFor b [] var bound body
      have hrole : header.role = .plain :=
        LoopHeader.role_of_unmarked (List.map_eq_nil_iff.mp hkinds)
      rw [Builder.plainFor, hrun, Jumps.problems, hrole]
      exact jumps_list fun s hs => ih s hs _ (fun _ _ => rfl) fun _ _ => rfl

/-! ## Nests -/

/-- The one marker of a loop is in order, if it belongs on loops. -/
theorem loop_problems_of_kind {h : LoopHeader} {kind : MarkerKind}
    (hkinds : h.markers.map (·.kind) = [kind])
    (htarget : kind.builtinTargets? = some (.only .loop)) (r : Registry) :
    (MarkerSite.loop h).problems r = [] := by
  obtain ⟨m, hmarkers, hkind⟩ := List.map_eq_singleton_iff.mp hkinds
  have haccepts : r.accepts m.kind .loop = true := by
    rw [hkind]
    cases kind <;> simp_all [Registry.accepts, MarkerKind.builtinTargets?]
  rw [MarkerSite.problems_eq, MarkerSite.markers, hmarkers]
  exact problemsOf_judgeMarkers_singleton haccepts

/-- A loop with a single marker has the role of that marker. -/
theorem role_of_kind {h : LoopHeader} {kind : MarkerKind} {role : LoopRole}
    (hkinds : h.markers.map (·.kind) = [kind]) (hrole : LoopRole.ofKind? kind = some role) :
    h.role = role := by
  obtain ⟨m, hmarkers, hkind⟩ := List.map_eq_singleton_iff.mp hkinds
  simp [LoopHeader.role, hmarkers, hkind, hrole]

/-- A frontier of inner loops of one depth. -/
structure Level (d : Nat) (fr : Nesting.Frontier) : Prop where
  depth : ∀ l ∈ fr.inner, l.depth = d
  outer : fr.outer = []

/-- An empty frontier is level at every depth. -/
theorem level_empty (d : Nat) : Level d .empty := ⟨fun _ hl => (nomatch hl), rfl⟩

/-- Statements with level frontiers have a level one together. -/
theorem level_list {d : Nat} {stmts : List Stmt} (h : ∀ s ∈ stmts, Level d (Nesting.frontier s)) :
    Level d (Nesting.frontierList stmts) := by
  constructor
  case depth =>
    intro l hl
    rw [Nesting.inner_frontierList] at hl
    obtain ⟨s, hs, hl⟩ := List.mem_flatMap.mp hl
    exact (h s hs).depth l hl
  case outer =>
    rw [Nesting.outer_frontierList, List.flatMap_eq_nil_iff]
    exact fun s hs => (h s hs).outer

/-- On a level frontier no depth differs from the first one. -/
theorem Level.siblings {d : Nat} {fr : Nesting.Frontier} (h : Level d fr) :
    Nesting.siblingProblems fr.inner = [] := by
  have hdepth := h.depth
  cases hinner : fr.inner with
  | nil => rfl
  | cons first rest =>
      rw [hinner, List.forall_mem_cons] at hdepth
      simp only [Nesting.siblingProblems, List.map_eq_nil_iff, List.filter_eq_nil_iff]
      intro l hl
      simp [hdepth.1, hdepth.2 l hl]

/-- On a level frontier nothing is reported. -/
theorem Level.problems {d : Nat} {fr : Nesting.Frontier} (h : Level d fr) : fr.problems = [] := by
  rw [Nesting.Frontier.problems, h.siblings, h.outer]
  rfl

/-- A statement in a group, as the loops around it see it: nothing is wrong with it, and it
reaches inner loops of one depth. -/
structure Fits (d : Nat) (Around : List Frame → Prop) (s : Stmt) : Prop where
  tidy : s.Tidy Around
  level : Level d (Nesting.frontier s)
  jumps : ∀ targets : List JumpTarget, Jumps.problems targets s = []

/-- An ordinary statement fits anywhere, at depth zero. -/
theorem Ordinary.fits {s : Stmt} (h : Ordinary false false s) : Fits 0 Stmt.Anywhere s := by
  obtain ⟨htidy, hfrontier⟩ := h.unmarked.tidy
  refine ⟨htidy, ?_, fun targets => h.jumps targets (fun hx => nomatch hx) fun hy => nomatch hy⟩
  rw [hfrontier]
  exact level_empty 0

/-- **One level more**: an inner loop around statements of one depth. -/
theorem fits_inner {d : Nat} (b : Builder) (var : String) (bound : Int) {body : List Stmt}
    (h : ∀ s ∈ body, Fits d Stmt.Anywhere s) (hd : (Nesting.frontierList body).innerDepth = d) :
    Fits (d + 1) Stmt.Anywhere ((inner var bound body).run b).1 ∧
      (Nesting.frontier ((inner var bound body).run b).1).inner ≠ [] ∧
      ∃ h ∈ ((inner var bound body).run b).1.loops, h.role = .inner := by
  obtain ⟨header, blockSpan, bodySpan, span, hrun, hkinds, n, hcounts⟩ :=
    exists_markedFor b [.inner] var bound body
  have hrole : header.role = .inner := role_of_kind hkinds rfl
  have hlevel : Level d (Nesting.frontierList body) := level_list fun s hs => (h s hs).level
  have hfrontier : Nesting.frontier (.forLoop header (.block body blockSpan bodySpan) span) =
      ⟨[⟨header.span, d + 1⟩], []⟩ := by
    simp [Nesting.frontier, Nesting.Frontier.add, Nesting.Frontier.empty, hrole,
      LoopRole.isAttributed, hd]
  have htidy : (Stmt.block body blockSpan bodySpan).Tidy Stmt.Anywhere :=
    Stmt.tidy_block (fun s hs => (h s hs).tidy) blockSpan bodySpan
  rw [inner, hrun]
  refine ⟨⟨?_, ?_, fun targets => ?_⟩, ?_, header, List.mem_cons_self, hrole⟩
  · exact Stmt.tidy_forLoop htidy span (loop_problems_of_kind hkinds rfl) hcounts.initSites
      hcounts.shapeProblems (by simp [hrole]) fun _ => hlevel.problems
  · rw [hfrontier]
    refine ⟨fun l hl => ?_, rfl⟩
    obtain rfl := List.mem_singleton.mp hl
    rfl
  · exact jumps_list fun s hs => (h s hs).jumps _
  · rw [hfrontier]
    exact List.cons_ne_nil _ _

/-- **Every nest** fits where inner loops of its depth do: induction on the levels. -/
theorem Nest.fits {d : Nat} {s : Stmt} (h : Nest d s) :
    Fits d Stmt.Anywhere s ∧ (Nesting.frontier s).inner ≠ [] ∧ ∃ h ∈ s.loops, h.role = .inner := by
  induction h with
  | @innermost b var bound body h =>
      have hempty : Nesting.frontierList body = .empty :=
        Stmt.frontierList_eq_empty fun s hs => (h s hs).unmarked.tidy.2
      exact fits_inner b var bound (fun s hs => (h s hs).fits) (by rw [hempty]; rfl)
  | @around d b var bound nests hnonempty _ ih =>
      have hlevel : Level d (Nesting.frontierList nests) :=
        level_list fun s hs => (ih s hs).1.level
      obtain ⟨first, hfirst⟩ := List.exists_mem_of_ne_nil nests hnonempty
      obtain ⟨l, hl⟩ := List.exists_mem_of_ne_nil _ (ih first hfirst).2.1
      have hmem : l ∈ (Nesting.frontierList nests).inner := by
        rw [Nesting.inner_frontierList]
        exact List.mem_flatMap.mpr ⟨first, hfirst, hl⟩
      have hdepth : (Nesting.frontierList nests).innerDepth = d := by
        rw [Nesting.innerDepth_eq_of_mem hlevel.siblings hmem, hlevel.depth l hmem]
      exact fits_inner b var bound (fun s hs => (ih s hs).1) hdepth

/-! ## Groups -/

/-- Directly in a group: some loop is outer and none is inner. -/
def InGroup (frames : List Frame) : Prop :=
  frames.any (·.role == .outer) = true ∧ frames.find? (·.role == .inner) = none

/-- A declaration of one marked variable whose dimensions are literals. -/
theorem fits_decl {d : Declaration} {m : Marker} {array : Declarator} (span : Span) (depth : Nat)
    (hmarkers : d.markers = [m]) (htarget : m.kind.builtinTargets? = some (.only .declaration))
    (hdecl : d.declarators = [array])
    (hdims : ∀ e ∈ array.dims, ∀ scope : Scope, scope.firstVariant? e = none) :
    Fits depth InGroup (.decl d span) := by
  have hsite : ∀ r, (MarkerSite.declaration d).problems r = [] := by
    intro r
    have haccepts : r.accepts m.kind .declaration = true := by
      cases hkind : m.kind <;> simp_all [Registry.accepts, MarkerKind.builtinTargets?]
    rw [MarkerSite.problems_eq, MarkerSite.markers, hmarkers]
    exact problemsOf_judgeMarkers_singleton haccepts
  have hplace : ∀ scope : Scope, InGroup scope.frames → Storage.roleProblem? scope d = none := by
    rintro scope ⟨houter, hinner⟩
    have hnearest : scope.nearestInner? = none := by
      rw [Scope.nearestInner?, hinner]
      rfl
    unfold Storage.roleProblem?
    rw [hdecl, Scope.hasOuter, houter, hnearest]
    cases d.role <;> rfl
  have hbounds : ∀ scope : Scope, Storage.boundProblems scope d = [] := by
    intro scope
    rw [Storage.boundProblems, hdecl, List.flatMap_singleton, List.filterMap_eq_nil_iff]
    intro e he
    rw [Storage.boundProblem?, hdims e he scope]
    exact ite_self none
  have hproblems : ∀ scope : Scope, InGroup scope.frames →
      Storage.declarationProblems scope d = [] := by
    intro scope hscope
    rw [Storage.declarationProblems, hplace scope hscope, hbounds, ite_self]
    rfl
  refine ⟨⟨fun r => ?_, fun _ => rfl, fun _ _ => rfl, rfl, fun scope hscope => ?_⟩,
    level_empty depth, fun _ => rfl⟩
  · rw [Stmt.markerSites, List.flatMap_singleton, hsite]
  · rw [Storage.judged, Storage.problemsOfJudged, List.flatMap_singleton]
    exact hproblems scope hscope

/-- A shared or exclusive declaration fits into a group. -/
theorem GroupDecl.fits {s : Stmt} (h : GroupDecl s) (depth : Nat) : Fits depth InGroup s := by
  cases h with
  | @shared b name dims hliteral =>
      refine fits_decl _ depth rfl rfl rfl fun e he scope => ?_
      obtain ⟨b', value, rfl⟩ := hliteral e he
      rfl
  | exclusive b name => exact fits_decl _ depth rfl rfl rfl fun e he => nomatch he

/-- What the rules find in a statement at the top of a kernel: nothing but loops of both
levels. -/
structure Quiet (s : Stmt) : Prop where
  markers : ∀ r : Registry, s.markerSites.flatMap (·.problems r) = []
  headers : ∀ t : Interner, s.loops.flatMap (·.shapeProblems t) = []
  hierarchy : Nesting.hierarchyProblems .nothing s = []
  depth : Nesting.depthProblems s = []
  storage : ∀ scope : Scope, scope.frames = [] →
    Storage.problemsOfJudged (Storage.judged s scope) = []
  jumps : Jumps.problems [] s = []
  outer : ∃ h ∈ s.loops, h.role = .outer
  inner : ∃ h ∈ s.loops, h.role = .inner

/-- **A group** has no problems of its own in any family. -/
theorem Group.quiet {s : Stmt} (h : Group s) : Quiet s := by
  obtain @⟨d, b, var, bound, decls, nests, hdecls, hnonempty, hnests⟩ := h
  obtain ⟨header, blockSpan, bodySpan, span, hrun, hkinds, n, hcounts⟩ :=
    exists_markedFor b [.outer] var bound (decls ++ nests)
  have hrole : header.role = .outer := role_of_kind hkinds rfl
  have hfits : ∀ s ∈ decls ++ nests, Fits d InGroup s := by
    intro s hs
    rcases List.mem_append.mp hs with hs | hs
    · exact (hdecls s hs).fits d
    · obtain ⟨⟨htidy, hlevel, hjumps⟩, -⟩ := (hnests s hs).fits
      exact ⟨htidy.mono fun _ _ => trivial, hlevel, hjumps⟩
  have hbody : (Stmt.block (decls ++ nests) blockSpan bodySpan).Tidy InGroup :=
    Stmt.tidy_block (fun s hs => (hfits s hs).tidy) blockSpan bodySpan
  have hlevel : Level d (Nesting.frontierList (decls ++ nests)) :=
    level_list fun s hs => (hfits s hs).level
  rw [Builder.outer, hrun]
  constructor
  case markers =>
    intro r
    have hinit : header.initSites.flatMap (·.problems r) = [] := by
      rw [List.flatMap_eq_nil_iff]
      exact fun site hsite => site.problems_of_unmarked (hcounts.initSites site hsite) r
    rw [Stmt.markerSites, List.flatMap_cons, List.flatMap_append, hinit, hbody.markers,
      loop_problems_of_kind hkinds rfl]
    rfl
  case headers =>
    intro t
    rw [Stmt.loops, List.flatMap_cons, hcounts.shapeProblems, hbody.headers]
    rfl
  case hierarchy =>
    have hloop : Nesting.Above.nothing.problem? header = none := by
      simp [Nesting.Above.problem?, Nesting.Above.nothing, hrole]
    have henter : (Nesting.Above.nothing.enter header).hasOuter = true := by
      simp [Nesting.Above.enter, hrole]
    rw [Nesting.hierarchyProblems, hloop, hbody.hierarchy _ henter]
    rfl
  case depth =>
    rw [Nesting.depthProblems, hbody.depth, Nesting.frontier, hlevel.problems, ite_self]
    rfl
  case storage =>
    intro scope hscope
    have hframes : InGroup (Storage.insideLoop header
        (Storage.aroundLoop header.init scope)).frames := by
      rw [Storage.frames_insideLoop, Storage.frames_aroundLoop, hscope, hrole]
      exact ⟨rfl, rfl⟩
    rw [Storage.judged, Storage.problemsOfJudged_append, hbody.storage _ hframes,
      Storage.problemsOfJudged_init hcounts.initSites, List.append_nil]
  case jumps => exact jumps_list fun s hs => (hfits s hs).jumps _
  case outer => exact ⟨header, List.mem_cons_self, hrole⟩
  case inner =>
    obtain ⟨nest, hnest⟩ := List.exists_mem_of_ne_nil nests hnonempty
    obtain ⟨-, -, h, hmem, hinner⟩ := (hnests nest hnest).fits
    refine ⟨h, List.mem_cons_of_mem _ ?_, hinner⟩
    rw [Stmt.loops, Stmt.loopsList_eq_flatMap]
    exact List.mem_flatMap.mpr ⟨nest, List.mem_append_right _ hnest, hmem⟩

/-! ## Kernels -/

section

variable {groups : List Stmt} (h : ∀ g ∈ groups, Quiet g)

include h

/-- Several groups have no problems with markers. -/
theorem quiet_markers (r : Registry) :
    (Stmt.markerSitesList groups).flatMap (·.problems r) = [] := by
  rw [Stmt.markerSitesList_eq_flatMap, List.flatMap_assoc, List.flatMap_eq_nil_iff]
  exact fun g hg => (h g hg).markers r

/-- Several groups have no problems with headers. -/
theorem quiet_headers (t : Interner) :
    (Stmt.loopsList groups).flatMap (·.shapeProblems t) = [] := by
  rw [Stmt.loopsList_eq_flatMap, List.flatMap_assoc, List.flatMap_eq_nil_iff]
  exact fun g hg => (h g hg).headers t

/-- One group has loops of both levels. -/
theorem quiet_levels (hnonempty : groups ≠ []) :
    Nesting.missingLevel? (Stmt.loopsList groups) = none := by
  obtain ⟨g, hg⟩ := List.exists_mem_of_ne_nil groups hnonempty
  have hany : ∀ role, (∃ h ∈ g.loops, h.role = role) →
      (Stmt.loopsList groups).any (·.role == role) = true := by
    rintro role ⟨h, hmem, hrole⟩
    rw [Stmt.loopsList_eq_flatMap]
    exact List.any_eq_true.mpr ⟨h, List.mem_flatMap.mpr ⟨g, hg, hmem⟩, beq_iff_eq.mpr hrole⟩
  rw [Nesting.missingLevel?, hany .outer (h g hg).outer, hany .inner (h g hg).inner]

/-- Several groups have no loop in a wrong place. -/
theorem quiet_hierarchy : Nesting.hierarchyProblemsList .nothing groups = [] := by
  rw [Nesting.hierarchyProblemsList_eq_flatMap, List.flatMap_eq_nil_iff]
  exact fun g hg => (h g hg).hierarchy

/-- Several groups have no loop of a wrong depth. -/
theorem quiet_depth : Nesting.depthProblemsList groups = [] := by
  rw [Nesting.depthProblemsList_eq_flatMap, List.flatMap_eq_nil_iff]
  exact fun g hg => (h g hg).depth

/-- Several groups have no problems with storage, with no loop around them. -/
theorem quiet_storage {scope : Scope} (hscope : scope.frames = []) :
    Storage.problemsOfJudged (Storage.judgedList groups scope) = [] :=
  @Stmt.problemsOfJudged_list (· = []) groups (fun g hg => (h g hg).storage) scope hscope

/-- Several groups have no problems with jumps. -/
theorem quiet_jumps : Jumps.problemsList [] groups = [] :=
  jumps_list fun g hg => (h g hg).jumps

end

/-- A kernel of quiet statements has no problem, with any parameters. -/
theorem problems_kernel (b : Builder) (s : String) {groups : List Stmt} (params : List Param)
    (hnonempty : groups ≠ []) (h : ∀ g ∈ groups, Quiet g) (names : Interner)
    (registry : Registry) :
    Subject.problems
      { kernel := { ((kernel s groups).run b).1 with params }, names, registry } = [] := by
  let kernel : Function := { ((Builder.kernel s groups).run b).1 with params }
  have hown : problemsOf (kernel.strictKernel registry) = [] := by
    rw [Function.strictKernel, problemsOf_map]
    exact problemsOf_judgeMarkers_singleton rfl
  have hpresence : Nesting.presenceProblems kernel = [] := by
    have hlevels : Nesting.missingLevel? kernel.loops = none := quiet_levels h hnonempty
    rw [Nesting.presenceProblems, hlevels]
    rfl
  have hstart : (Storage.atStart kernel).frames = [] := Scope.frames_bindAll ..
  simp only [Subject.problems, List.append_eq_nil_iff]
  exact ⟨List.append_eq_nil_iff.mpr ⟨hown, quiet_markers h registry⟩, quiet_headers h names,
    List.append_eq_nil_iff.mpr ⟨hpresence,
      List.append_eq_nil_iff.mpr ⟨quiet_hierarchy h, quiet_depth h⟩⟩,
    quiet_storage h hstart, quiet_jumps h⟩

/-- A grid is a kernel of groups, of which there is at least one. -/
theorem Grid.exists_kernel {f : Function} (h : Grid f) :
    ∃ b s groups params, groups ≠ [] ∧ (∀ g ∈ groups, Group g) ∧
      f = { ((Builder.kernel s groups).run b).1 with params } := by
  induction h with
  | @kernel b s groups hnonempty hgroups => exact ⟨b, s, groups, [], hnonempty, hgroups, rfl⟩
  | param _ p ih =>
      obtain ⟨b, s, groups, params, hnonempty, hgroups, rfl⟩ := ih
      exact ⟨b, s, groups, params ++ [p], hnonempty, hgroups, rfl⟩

end Builder

/-- **Grids are accepted.**  A kernel of outer loops, each with the variables of its group and
then nests of one depth, has no problem: whatever names and bounds its loops have, whatever
stands in the innermost loops, and whatever else is registered. -/
theorem grids_accepted {kernel : Function} (h : Builder.Grid kernel) (names : Interner)
    (registry : Registry) (extent : Extent) :
    (kernel.verdict names registry extent).problems = [] := by
  obtain ⟨b, s, groups, params, hnonempty, hgroups, rfl⟩ := h.exists_kernel
  have hall := Builder.problems_kernel b s params hnonempty (fun g hg => (hgroups g hg).quiet)
    names registry
  rw [← Function.problems_verdict_all] at hall
  cases extent with
  | all => exact hall
  | first => rw [Function.problems_verdict_first, hall, List.take_nil]

section

open Builder

/-- Two groups of depths two and one, in which every loop runs over `i`, and so does an array. -/
def Function.repeatedSample : Function :=
  let jump := breakJump.run (.start .initial)
  let size := (int 8).run jump.2
  let search := (plainFor "i" 3 [jump.1]).run size.2
  let short := (inner "i" 4 [search.1]).run search.2
  let long := (inner "i" 4 [short.1]).run short.2
  let array := (shared "i" [size.1]).run long.2
  let value := (exclusive "x").run array.2
  let tiled := (outer "i" 4 ([array.1, value.1] ++ [long.1])).run value.2
  let flat := (inner "i" 4 []).run tiled.2
  let plain := (outer "i" 4 ([] ++ [flat.1])).run flat.2
  ((kernel "k" [tiled.1, plain.1]).run plain.2).1

/-- The sample is a grid, and passes. -/
theorem grids_accepted_repeatedSample :
    Grid .repeatedSample ∧ Function.repeatedSample.loops.length = 6 ∧
      (Function.repeatedSample.verdict .initial .empty .all).problems = [] := by
  have hgrid : Grid .repeatedSample := by
    refine .kernel _ "k" (List.cons_ne_nil _ _) ?_
    rw [List.forall_mem_cons, List.forall_mem_singleton]
    constructor
    · have hsearch : ∀ b b' : Builder,
          Ordinary false false ((plainFor "i" 3 [(breakJump.run b').1]).run b).1 :=
        fun b b' => .plainFor b "i" 3 (List.forall_mem_singleton.mpr (.breakJump b'))
      refine .outer 2 _ "i" 4 ?_ (List.cons_ne_nil _ _) ?_
      · rw [List.forall_mem_cons, List.forall_mem_singleton]
        refine ⟨.shared _ "i" ?_, .exclusive _ "x"⟩
        exact List.forall_mem_singleton.mpr ⟨_, 8, rfl⟩
      · refine List.forall_mem_singleton.mpr (.around _ "i" 4 (List.cons_ne_nil _ _) ?_)
        refine List.forall_mem_singleton.mpr (.innermost _ "i" 4 ?_)
        exact List.forall_mem_singleton.mpr (hsearch _ _)
    · refine .outer 1 _ "i" 4 (List.forall_mem_nil _) (List.cons_ne_nil _ _) ?_
      exact List.forall_mem_singleton.mpr (.innermost _ "i" 4 (List.forall_mem_nil _))
  exact ⟨hgrid, by decide +kernel, grids_accepted hgrid .initial .empty .all⟩

end

end KernelCheck
