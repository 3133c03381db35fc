import KernelCheck.Proofs.Storage.Outside

/-!
# Declarations of several names

A declaration of several names should be no different from several declarations
of one name each.  But the dimensions of a shared declaration are all judged in
front of it, and a declared name is in scope from there on for the initial
values only.  So the two differ where a dimension mentions a name that stands
further to the left in its own declaration, and that name means something else
than before.

1. What is found around a place in a block depends on what stands there only
   through the scope behind it (`BlockPlace.replaced`).
2. The scope behind a declaration is the scope behind its parts
   (`afterList_parts`), and its dimensions are those of its parts, each in a
   scope of its own (`variantBounds_parts`).

`variantBounds_split` says when splitting changes nothing, and
`variantBounds_split_ne` shows it changing something in both ways.
-/

namespace KernelCheck

/-! ## Places in a kernel -/

mutual

/-- A place between the statements of a block, or in a block inside one of them. -/
inductive BlockPlace where
  | here (before behind : List Stmt)
  | inside (before : List Stmt) (place : StmtPlace) (behind : List Stmt)

/-- A place in a block inside a statement. -/
inductive StmtPlace where
  | block (place : BlockPlace) (blockSpan span : Span)
  | ifThen (condition : Expr) (place : StmtPlace) (span : Span)
  | thenBranch (condition : Expr) (place : StmtPlace) (elseBranch : Stmt) (span : Span)
  | elseBranch (condition : Expr) (thenBranch : Stmt) (place : StmtPlace) (span : Span)
  | forLoop (header : LoopHeader) (place : StmtPlace) (span : Span)
  | whileLoop (condition : Expr) (place : StmtPlace) (span : Span)
  | doWhile (place : StmtPlace) (condition : Expr) (span : Span)
  | switch (scrutinee : Expr) (place : StmtPlace) (span : Span)

end

mutual

/-- The statements of the block, with some of them put at the place. -/
def BlockPlace.fill : BlockPlace → List Stmt → List Stmt
  | .here before behind, xs => before ++ (xs ++ behind)
  | .inside before place behind, xs => before ++ place.fill xs :: behind

/-- The statement, with some statements put at the place. -/
def StmtPlace.fill : StmtPlace → List Stmt → Stmt
  | .block place blockSpan span, xs => .block (place.fill xs) blockSpan span
  | .ifThen c place span, xs => .ifThen c (place.fill xs) span
  | .thenBranch c place b span, xs => .ifElse c (place.fill xs) b span
  | .elseBranch c a place span, xs => .ifElse c a (place.fill xs) span
  | .forLoop header place span, xs => .forLoop header (place.fill xs) span
  | .whileLoop c place span, xs => .whileLoop c (place.fill xs) span
  | .doWhile place c span, xs => .doWhile (place.fill xs) c span
  | .switch e place span, xs => .switch e (place.fill xs) span

end

open Storage in
mutual

/-- The scope at the place, from the scope at the start of the block. -/
def BlockPlace.scope : BlockPlace → Scope → Scope
  | .here before _, s => afterList before s
  | .inside before place _, s => place.scope (afterList before s)

/-- The scope at the place, from the scope in front of the statement. -/
def StmtPlace.scope : StmtPlace → Scope → Scope
  | .block place _ _, s => place.scope s
  | .ifThen _ place _, s | .thenBranch _ place _ _, s | .switch _ place _, s => place.scope s
  | .elseBranch _ a place _, s => place.scope ((after a s).leave s)
  | .forLoop header place _, s => place.scope (insideLoop header (aroundLoop header.init s))
  | .whileLoop _ place span, s | .doWhile place _ span, s => place.scope (s.enter .plain span)

end

namespace Storage

/-- Two lists of statements leave what the second one leaves behind the first. -/
theorem afterList_append (xs ys : List Stmt) (s : Scope) :
    afterList (xs ++ ys) s = afterList ys (afterList xs s) := by
  induction xs generalizing s with
  | nil => rfl
  | cons x rest ih => exact ih (after x s)

/-- And judge what the first one judges, and then the second one behind it. -/
theorem judgedList_append (xs ys : List Stmt) (s : Scope) :
    judgedList (xs ++ ys) s = judgedList xs s ++ judgedList ys (afterList xs s) := by
  induction xs generalizing s with
  | nil => rfl
  | cons x rest ih =>
      rw [List.cons_append, judgedList, judgedList, ih (after x s), List.append_assoc]
      rfl

/-- Two traversals that differ only in the declarations that they meet in between:
`xs` in the one and `ys` in the other, both of them in the scope `inner`. -/
structure Replaced (inner : Scope) (xs ys : List Stmt) (t t' : Scope)
    (js js' : List (Scope × Declaration)) : Prop where
  scope : t = t'
  judged : ∃ front back, js = front ++ (judgedList xs inner ++ back) ∧
    js' = front ++ (judgedList ys inner ++ back)

namespace Replaced

variable {inner t t' : Scope} {xs ys : List Stmt} {js js' : List (Scope × Declaration)}

/-- Something in front of both, and something behind them that goes on from where
they have ended. -/
theorem extend (h : Replaced inner xs ys t t' js js') (front : List (Scope × Declaration))
    (scopeAfter : Scope → Scope) (judgedAfter : Scope → List (Scope × Declaration)) :
    Replaced inner xs ys (scopeAfter t) (scopeAfter t')
      (front ++ (js ++ judgedAfter t)) (front ++ (js' ++ judgedAfter t')) := by
  obtain ⟨rfl, f, b, rfl, rfl⟩ := h
  refine ⟨rfl, front ++ f, b ++ judgedAfter t, ?_, ?_⟩
  · simp only [List.append_assoc]
  · simp only [List.append_assoc]

/-- Nothing but a change of scope behind them. -/
theorem leave (h : Replaced inner xs ys t t' js js') (scopeAfter : Scope → Scope) :
    Replaced inner xs ys (scopeAfter t) (scopeAfter t') js js' := by
  simpa using h.extend [] scopeAfter fun _ => []

end Replaced

end Storage

open Storage in
mutual

/-- **Only the scope behind a place counts.**  If two lists of statements come to
the same scope at a place, then all that is judged elsewhere is judged alike. -/
theorem BlockPlace.replaced : ∀ (place : BlockPlace) {xs ys : List Stmt} (s : Scope),
    afterList xs (place.scope s) = afterList ys (place.scope s) →
      Replaced (place.scope s) xs ys (afterList (place.fill xs) s) (afterList (place.fill ys) s)
        (judgedList (place.fill xs) s) (judgedList (place.fill ys) s)
  | .here before behind, xs, ys, s, h => by
      have hplace : Replaced (afterList before s) xs ys (afterList xs (afterList before s))
          (afterList ys (afterList before s)) (judgedList xs (afterList before s))
          (judgedList ys (afterList before s)) :=
        ⟨h, [], [], by simp, by simp⟩
      have hblock := hplace.extend (judgedList before s) (afterList behind) (judgedList behind)
      simpa only [BlockPlace.fill, BlockPlace.scope, afterList_append, judgedList_append]
        using hblock
  | .inside before place behind, xs, ys, s, h => by
      have hplace := place.replaced (afterList before s) h
      have hblock := hplace.extend (judgedList before s) (afterList behind) (judgedList behind)
      simpa only [BlockPlace.fill, BlockPlace.scope, afterList_append, judgedList_append,
        afterList, judgedList] using hblock

/-- The same for a place in a block inside a statement. -/
theorem StmtPlace.replaced : ∀ (place : StmtPlace) {xs ys : List Stmt} (s : Scope),
    afterList xs (place.scope s) = afterList ys (place.scope s) →
      Replaced (place.scope s) xs ys (after (place.fill xs) s) (after (place.fill ys) s)
        (judged (place.fill xs) s) (judged (place.fill ys) s)
  | .block place _ _, _, _, s, h => (place.replaced s h).leave (·.leave s)
  | .ifThen _ place _, _, _, s, h => (place.replaced s h).leave (·.leave s)
  | .switch _ place _, _, _, s, h => (place.replaced s h).leave (·.leave s)
  | .thenBranch _ place b _, xs, ys, s, h => by
      have hbranch := (place.replaced s h).leave (·.leave s)
      have hrest := hbranch.extend [] (fun t => (after b t).leave s) (judged b)
      simpa only [StmtPlace.fill, StmtPlace.scope, after, judged, List.nil_append] using hrest
  | .elseBranch _ a place _, xs, ys, s, h => by
      have hbranch := place.replaced ((after a s).leave s) h
      have hboth := hbranch.extend (judged a s) (·.leave s) fun _ => []
      simpa only [StmtPlace.fill, StmtPlace.scope, after, judged, List.append_nil] using hboth
  | .forLoop header place _, xs, ys, s, h => by
      have hbody := place.replaced (insideLoop header (aroundLoop header.init s)) h
      have hloop := hbody.extend (judgedInit header.init s)
        (fun t => (t.leave (aroundLoop header.init s)).leave s) fun _ => []
      simpa only [StmtPlace.fill, StmtPlace.scope, after, judged, List.append_nil] using hloop
  | .whileLoop _ place span, _, _, s, h =>
      (place.replaced (s.enter .plain span) h).leave (·.leave s)
  | .doWhile place _ span, _, _, s, h =>
      (place.replaced (s.enter .plain span) h).leave (·.leave s)

end

/-! ## The parts of a declaration -/

/-- The declarations of one name each that a declaration is made of. -/
def Declaration.parts (d : Declaration) : List Declaration :=
  d.declarators.map fun one => { d with declarators := [one] }

/-- A dimension of an array, and the scope that it is judged in. -/
structure Sizing where
  scope : Scope
  array : Name
  dim : Expr

/-- The dimensions of several declared names, each with the names before it in
scope. -/
def Scope.sizings (s : Scope) : List Declarator → List Sizing
  | [] => []
  | d :: rest => d.dims.map (⟨s, d.name, ·⟩) ++ (s.declare [d]).sizings rest

/-- At no dimension of a shared declaration do the names before it in the same
declaration change what is mentioned first among the variables that change. -/
def Declaration.SizedAlike (d : Declaration) (s : Scope) : Prop :=
  d.role = .shared → ∀ z ∈ s.sizings d.declarators,
    z.scope.firstVariant? z.dim = s.firstVariant? z.dim

instance (d : Declaration) (s : Scope) : Decidable (d.SizedAlike s) :=
  inferInstanceAs (Decidable (_ → ∀ z ∈ _, _ = _))

/-- The problem with a bound of a shared array. -/
def Problem.isVariantBound : Problem → Bool
  | variantBound .. => true
  | _ => false

namespace Storage

/-- The dimensions with their scopes are those of the declarators, in order. -/
theorem map_dim_sizings (s : Scope) (ds : List Declarator) :
    (s.sizings ds).map (·.dim) = ds.flatMap (·.dims) := by
  induction ds generalizing s with
  | nil => rfl
  | cons d rest ih => simp [Scope.sizings, ih, Function.comp_def]

/-- All dimensions are judged in one scope: that of the declaration. -/
theorem boundProblems_eq_sizings (s : Scope) (d : Declaration) (t : Scope) :
    boundProblems s d = (t.sizings d.declarators).filterMap fun z =>
      boundProblem? s s.variantNames z.array z.dim := by
  rw [boundProblems]
  generalize d.declarators = ds
  induction ds generalizing t with
  | nil => rfl
  | cons one rest ih =>
      rw [List.flatMap_cons, Scope.sizings, List.filterMap_append, ← ih (t.declare [one]),
        List.filterMap_map]
      rfl

/-- A declaration cut into its declarators leaves the scope it leaves. -/
theorem afterList_parts (d : Declaration) (span : Span) (s : Scope) :
    afterList (d.parts.map (.decl · span)) s = s.declare d.declarators := by
  unfold Declaration.parts
  generalize d.declarators = ds
  induction ds generalizing s with
  | nil => rfl
  | cons one rest ih => exact ih (s.declare [one])

/-- The bounds of shared arrays that are among the problems of some declarations. -/
def variantBounds (js : List (Scope × Declaration)) : List Problem :=
  (problemsOfJudged js).filter (·.isVariantBound)

/-- The bound problems of two lists of judgements. -/
theorem variantBounds_append (js ks : List (Scope × Declaration)) :
    variantBounds (js ++ ks) = variantBounds js ++ variantBounds ks := by
  rw [variantBounds, problemsOfJudged_append, List.filter_append]
  rfl

/-- The first check never gives a bound problem. -/
theorem isVariantBound_of_roleProblem? {s : Scope} {d : Declaration} {p : Problem}
    (h : roleProblem? s d = some p) : p.isVariantBound = false := by
  unfold roleProblem? at h
  repeat' split at h
  all_goals cases h
  all_goals rfl

/-- A bound problem names the dimension and the first variable in it that varies. -/
theorem eq_variantBound_of_boundProblem? {s : Scope} {array : Name} {dim : Expr} {p : Problem}
    (h : boundProblem? s s.variantNames array dim = some p) :
    ∃ o, s.firstVariant? dim = some o ∧ p = .variantBound dim.span array o.1 o.2 := by
  rw [boundProblem?_eq_map] at h
  obtain ⟨o, ho, rfl⟩ := Option.map_eq_some_iff.mp h
  exact ⟨o, ho, rfl⟩

/-- The bounds among the problems of one declaration. -/
theorem variantBounds_singleton (s : Scope) (d : Declaration) :
    variantBounds [(s, d)] = if d.role = .shared then boundProblems s d else [] := by
  have hrole : (roleProblem? s d).toList.filter (·.isVariantBound) = [] := by
    cases hproblem : roleProblem? s d with
    | none => rfl
    | some p => simp [isVariantBound_of_roleProblem? hproblem]
  have hbounds : (boundProblems s d).filter (·.isVariantBound) = boundProblems s d := by
    rw [List.filter_eq_self]
    intro p hp
    rw [boundProblems_eq_sizings s d s] at hp
    obtain ⟨z, -, hz⟩ := List.mem_filterMap.mp hp
    obtain ⟨o, -, rfl⟩ := eq_variantBound_of_boundProblem? hz
    rfl
  rw [variantBounds, problemsOfJudged, List.flatMap_singleton]
  change (declarationProblems s d).filter (·.isVariantBound) = _
  rw [declarationProblems, List.filter_append, hrole, List.nil_append]
  split
  · exact hbounds
  · rfl

/-- The parts of a declaration are judged one after the other, so each dimension
is judged with the names before it in scope. -/
theorem variantBounds_parts (s : Scope) (d : Declaration) (span : Span) :
    variantBounds (judgedList (d.parts.map (.decl · span)) s) =
      if d.role = .shared then
        (s.sizings d.declarators).filterMap fun z =>
          boundProblem? z.scope z.scope.variantNames z.array z.dim
      else [] := by
  unfold Declaration.parts
  generalize d.declarators = ds
  induction ds generalizing s with
  | nil => split <;> rfl
  | cons one rest ih =>
      rw [List.map_cons, List.map_cons, judgedList, variantBounds_append]
      have hrest := ih (s.declare [one])
      have hone : variantBounds [(s, { d with declarators := [one] })] =
          if d.role = .shared then one.dims.filterMap (boundProblem? s s.variantNames one.name)
          else [] := by
        rw [variantBounds_singleton]
        simp only [boundProblems, List.flatMap_singleton]
        rfl
      change variantBounds [(s, { d with declarators := [one] })] ++
        variantBounds (judgedList _ (s.declare [one])) = _
      rw [hone, hrest]
      split
      · rw [Scope.sizings, List.filterMap_append, List.filterMap_map]
        rfl
      · rfl

/-- Lists of problems that are put together from at most one problem for each of
some places are equal only if they are equal at each place. -/
theorem filterMap_inj_of_span {α : Type} {xs : List α} {f g : α → Option Problem}
    (place : α → Span) (hf : ∀ x p, f x = some p → p.span = place x)
    (hg : ∀ x p, g x = some p → p.span = place x) (hplaces : (xs.map place).Nodup)
    (h : xs.filterMap f = xs.filterMap g) : ∀ x ∈ xs, f x = g x := by
  induction xs with
  | nil => simp
  | cons x rest ih =>
      rw [List.map_cons, List.nodup_cons] at hplaces
      obtain ⟨hnew, hrest⟩ := hplaces
      -- a problem at this place is not among those of the other places
      have hother : ∀ (k : α → Option Problem), (∀ x p, k x = some p → p.span = place x) →
          ∀ p ∈ rest.filterMap k, p.span ≠ place x := by
        intro k hk p hp heq
        obtain ⟨y, hy, hky⟩ := List.mem_filterMap.mp hp
        exact hnew (List.mem_map.mpr ⟨y, hy, by rw [← hk y p hky, heq]⟩)
      have hhead : f x = g x ∧ rest.filterMap f = rest.filterMap g := by
        rw [List.filterMap_cons, List.filterMap_cons] at h
        cases hfx : f x with
        | none =>
            cases hgx : g x with
            | none => exact ⟨rfl, by simpa [hfx, hgx] using h⟩
            | some q =>
                simp only [hfx, hgx] at h
                exact absurd (hg x q hgx) (hother f hf q (by simp [h]))
        | some p =>
            cases hgx : g x with
            | none =>
                simp only [hfx, hgx] at h
                exact absurd (hf x p hfx) (hother g hg p (by simp [← h]))
            | some q =>
                simp only [hfx, hgx, List.cons.injEq] at h
                exact ⟨by rw [h.1], h.2⟩
      intro y hy
      rcases List.mem_cons.mp hy with rfl | hy
      · exact hhead.1
      · exact ih hrest hhead.2 y hy

end Storage

/-! ## Kernels -/

/-- The function with other statements in its body. -/
def Function.withStmts (f : Function) (stmts : List Stmt) : Function :=
  { f with body := { f.body with stmts } }

/-- The bounds of shared arrays that the rules on storage reject. -/
def Function.variantBounds (kernel : Function) (names : Interner) (registry : Registry) :
    List Problem :=
  (Stage.storage { kernel, names, registry } (.empty .all)).problems.filter (·.isVariantBound)

/-- The bound problems of a kernel are those of its judgements. -/
theorem Function.variantBounds_eq (kernel : Function) (names : Interner) (registry : Registry) :
    kernel.variantBounds names registry = Storage.variantBounds kernel.judged := by
  rw [Function.variantBounds, (Stage.storage_finds { kernel, names, registry }).all_eq]
  rfl

open Storage in
/-- The two lists of bounds differ at the split declaration only. -/
theorem variantBounds_split_iff (kernel : Function) (place : BlockPlace) (d : Declaration)
    (span : Span) (names : Interner) (registry : Registry) :
    (kernel.withStmts (place.fill (d.parts.map (.decl · span)))).variantBounds names registry =
        (kernel.withStmts (place.fill [.decl d span])).variantBounds names registry ↔
      variantBounds (judgedList (d.parts.map (.decl · span)) (place.scope (atStart kernel))) =
        variantBounds [(place.scope (atStart kernel), d)] := by
  have hscope : afterList (d.parts.map (.decl · span)) (place.scope (atStart kernel)) =
      afterList [.decl d span] (place.scope (atStart kernel)) :=
    afterList_parts d span _
  obtain ⟨-, front, back, hapart, htogether⟩ := place.replaced (atStart kernel) hscope
  have hapart' : (kernel.withStmts (place.fill (d.parts.map (.decl · span)))).judged =
      front ++ (judgedList (d.parts.map (.decl · span)) (place.scope (atStart kernel)) ++ back) :=
    hapart
  have htogether' : (kernel.withStmts (place.fill [.decl d span])).judged =
      front ++ ([(place.scope (atStart kernel), d)] ++ back) := htogether
  rw [Function.variantBounds_eq, Function.variantBounds_eq, hapart', htogether']
  simp only [variantBounds_append, List.append_right_inj, List.append_left_inj]

/-- **Splitting a declaration.**  If no dimension of the declaration has another
first mention of a changing variable with the names before it in scope, then
splitting it leaves the rejected bounds as they are.  If its dimensions have
different spans, then splitting it leaves them as they are in no other case. -/
theorem variantBounds_split (kernel : Function) (place : BlockPlace) (d : Declaration)
    (span : Span) (names : Interner) (registry : Registry) :
    (d.SizedAlike (place.scope (Storage.atStart kernel)) →
      (kernel.withStmts (place.fill (d.parts.map (.decl · span)))).variantBounds names registry =
        (kernel.withStmts (place.fill [.decl d span])).variantBounds names registry) ∧
    (((d.declarators.flatMap (·.dims)).map (·.span)).Nodup →
      (kernel.withStmts (place.fill (d.parts.map (.decl · span)))).variantBounds names registry =
        (kernel.withStmts (place.fill [.decl d span])).variantBounds names registry →
      d.SizedAlike (place.scope (Storage.atStart kernel))) := by
  rw [variantBounds_split_iff, Storage.variantBounds_parts, Storage.variantBounds_singleton]
  generalize place.scope (Storage.atStart kernel) = s
  rw [Storage.boundProblems_eq_sizings s d s]
  constructor
  · intro halike
    split
    case isTrue hshared =>
      apply List.filterMap_congr
      intro z hz
      rw [Storage.boundProblem?_eq_map, Storage.boundProblem?_eq_map, halike hshared z hz]
    case isFalse => rfl
  · intro hspans heq hshared z hz
    rw [if_pos hshared, if_pos hshared] at heq
    rw [← Storage.map_dim_sizings s, List.map_map] at hspans
    have hplace : ∀ (t : Scope) (z : Sizing) (p : Problem),
        Storage.boundProblem? t t.variantNames z.array z.dim = some p → p.span = z.dim.span := by
      intro t z p hp
      obtain ⟨o, -, rfl⟩ := Storage.eq_variantBound_of_boundProblem? hp
      rfl
    have hsame := Storage.filterMap_inj_of_span (fun z : Sizing => z.dim.span)
      (fun z => hplace z.scope z) (fun z => hplace s z) hspans heq z hz
    rw [Storage.boundProblem?_eq_map, Storage.boundProblem?_eq_map] at hsame
    cases hz : z.scope.firstVariant? z.dim <;> cases hs : s.firstVariant? z.dim <;>
      simp_all [Prod.ext_iff]

/-- A kernel without statements. -/
def Function.bareSample : Function :=
  ⟨.empty, [], { base := .void }, ⟨[], ⟨0, 1⟩⟩, [⟨.kernel, ⟨0, 1⟩⟩], ⟨0, 1⟩⟩

/-- A place in a group loop, in front of the loop over items. -/
def BlockPlace.groupSample (group : Name) : BlockPlace :=
  let place (n : Nat) : Span := ⟨n, n + 1⟩
  let header (kind : MarkerKind) (var : Name) (n : Nat) : LoopHeader :=
    let value : Expr := .ident var (place n)
    ⟨some (.decl ⟨{ base := .int }, [⟨var, [], some (.int 0 (place n)), place n⟩], [], place n⟩),
      some (.binary .lt value (.int 4 (place n)) (place n)),
      some (.assign .add value (.int 1 (place n)) (place n)), [⟨kind, place n⟩], place n⟩
  let items : Stmt := .forLoop (header .inner ⟨9⟩ 40) (.block [] (place 40) (place 40)) (place 40)
  .inside []
    (.forLoop (header .outer group 10) (.block (.here [] [items]) (place 10) (place 10))
      (place 10)) []

/-- A shared declaration of a variable with an initial value, and of an array that
has this variable as its size. -/
def Declaration.sizedSample (var : Name) (value : Expr) : Declaration :=
  ⟨{ base := .int },
    [⟨var, [], some value, ⟨20, 21⟩⟩, ⟨⟨3⟩, [.ident var ⟨30, 31⟩], none, ⟨30, 31⟩⟩],
    [⟨.shared, ⟨18, 19⟩⟩], ⟨18, 32⟩⟩

/-- A shared variable and an array that is sized by the number of the group: the
array is rejected, declared apart or not. -/
theorem variantBounds_split_groupSample :
    let group : Name := ⟨1⟩
    let place := BlockPlace.groupSample group
    let d : Declaration :=
      ⟨{ base := .int },
        [⟨⟨2⟩, [], some (.int 4 ⟨21, 22⟩), ⟨20, 21⟩⟩,
          ⟨⟨3⟩, [.ident group ⟨30, 31⟩], none, ⟨30, 31⟩⟩],
        [⟨.shared, ⟨18, 19⟩⟩], ⟨18, 32⟩⟩
    let found (stmts : List Stmt) : List Problem :=
      (Function.bareSample.withStmts (place.fill stmts)).variantBounds .initial .empty
    d.SizedAlike (place.scope (Storage.atStart .bareSample)) ∧
      found [.decl d d.span] = [.variantBound ⟨30, 31⟩ ⟨3⟩ group ⟨30, 31⟩] ∧
      found (d.parts.map (.decl · d.span)) = found [.decl d d.span] := by
  intro group place d found
  have halike : d.SizedAlike (place.scope (Storage.atStart .bareSample)) := by decide
  refine ⟨halike, by decide, ?_⟩
  exact (variantBounds_split .bareSample place d d.span .initial .empty).1 halike

/-- Splitting a declaration makes a difference in both ways.  An array that is
sized by a variable with the number of the group is rejected only if the variable
is declared apart; one that is sized by a constant which takes the name of the
loop variable is rejected only if the two are declared together. -/
theorem variantBounds_split_ne :
    let group : Name := ⟨1⟩
    let found (stmts : List Stmt) : List Problem :=
      (Function.bareSample.withStmts ((BlockPlace.groupSample group).fill stmts)).variantBounds
        .initial .empty
    let derived := Declaration.sizedSample ⟨2⟩ (.ident group ⟨21, 22⟩)
    let shadowing := Declaration.sizedSample group (.int 4 ⟨21, 22⟩)
    (found [.decl derived derived.span] = [] ∧
        found (derived.parts.map (.decl · derived.span)) =
          [.variantBound ⟨30, 31⟩ ⟨3⟩ ⟨2⟩ ⟨30, 31⟩]) ∧
      found [.decl shadowing shadowing.span] = [.variantBound ⟨30, 31⟩ ⟨3⟩ group ⟨30, 31⟩] ∧
        found (shadowing.parts.map (.decl · shadowing.span)) = [] := by
  decide

end KernelCheck
