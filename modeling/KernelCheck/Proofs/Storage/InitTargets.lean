import KernelCheck.Proofs.Storage.Lexical
import KernelCheck.Proofs.Storage.Marks
import KernelCheck.Proofs.Storage.Slots

/-!
# What an init expression assigns

A loop whose init clause is an expression should iterate over every variable that this
expression assigns: by itself, by the parts of a comma list or by the links of a chain.  The
rules take the target of the outermost assignment only.

1. What changes at the start of the body of a loop is what changes in front of the loop, and
   the variables that the loop is taken to iterate over (`isVariant_insideLoop_iff`).
2. A variable that changes there goes on changing as long as its name means it, and every
   dimension in the body that mentions it is reported (`Storage.allReported`).
3. A body that does nothing but size an array by a variable tells the two cases apart
   (`exists_body_not_allReported`).

`init_targets_reported_iff` says for which variables the rules do what they should, and
`init_targets_reported_ne` shows two init expressions with targets that they miss.
-/

namespace KernelCheck

/-! ## Dimensions that mention a variable -/

/-- A dimension of a shared array. -/
structure SharedSize where
  array : Name
  dim : Expr

/-- The problem is about this dimension, and about a variable that it mentions. -/
def SharedSize.IsReportedBy (z : SharedSize) (p : Problem) : Prop :=
  ∃ o ∈ z.dim.occurrences, p = .variantBound z.dim.span z.array o.1 o.2

/-- Each of the dimensions has a problem of its own, in this order. -/
abbrev AllReported (zs : List SharedSize) (ps : List Problem) : Prop :=
  List.SublistForall₂ SharedSize.IsReportedBy zs ps

/-- The dimensions of several declared names that mention a variable, up to the name that hides
it. -/
def Declarator.sizesSeeing (var : Name) : List Declarator → List SharedSize
  | [] => []
  | d :: rest =>
    (d.dims.filter (·.mentions var)).map (⟨d.name, ·⟩) ++
      if d.name = var then [] else Declarator.sizesSeeing var rest

/-- The dimensions of a shared declaration in which a name means a variable in front of it. -/
def Declaration.sizesSeeing (var : Name) (d : Declaration) : List SharedSize :=
  if d.role = .shared then Declarator.sizesSeeing var d.declarators else []

/-- Those of the declaration in an init clause. -/
def LoopHeader.sizesSeeing (var : Name) (h : LoopHeader) : List SharedSize :=
  match h.init with
  | some (.decl d) => d.sizesSeeing var
  | _ => []

mutual

/-- The dimensions of shared arrays in a statement in which a name is mentioned and means a
variable in front of the statement: no declaration and no header in between declares it. -/
def Stmt.sizesSeeing (var : Name) : Stmt → List SharedSize
  | .decl d _ => d.sizesSeeing var
  | .block stmts _ _ => Stmt.sizesSeeingList var stmts
  | .ifThen _ a _ => a.sizesSeeing var
  | .ifElse _ a b _ => a.sizesSeeing var ++ b.sizesSeeing var
  | .forLoop header body _ =>
    header.sizesSeeing var ++ if var ∈ header.declared then [] else body.sizesSeeing var
  | .whileLoop _ body _ | .doWhile body _ _ | .switch _ body _ => body.sizesSeeing var
  | .expr .. | .caseLabel .. | .breakJump .. | .continueJump .. | .returnJump .. | .empty .. => []

/-- The same for several statements, up to a declaration of the name. -/
def Stmt.sizesSeeingList (var : Name) : List Stmt → List SharedSize
  | [] => []
  | s :: rest =>
    s.sizesSeeing var ++ if var ∈ s.declared then [] else Stmt.sizesSeeingList var rest

end

/-! ## All of them are reported -/

namespace AllReported

variable {zs zs' : List SharedSize} {ps ps' : List Problem}

/-- Two lists are reported if each is, in what was found for it. -/
theorem append (h : AllReported zs ps) (h' : AllReported zs' ps') :
    AllReported (zs ++ zs') (ps ++ ps') := by
  obtain ⟨qs, hqs, hsub⟩ := List.sublistForall₂_iff.mp h
  obtain ⟨qs', hqs', hsub'⟩ := List.sublistForall₂_iff.mp h'
  exact List.sublistForall₂_iff.mpr ⟨qs ++ qs', List.rel_append hqs hqs', hsub.append hsub'⟩

/-- Further problems in between take nothing away. -/
theorem mono (h : AllReported zs ps) (hsub : ps.Sublist ps') : AllReported zs ps' := by
  obtain ⟨qs, hqs, hqs'⟩ := List.sublistForall₂_iff.mp h
  exact List.sublistForall₂_iff.mpr ⟨qs, hqs, hqs'.trans hsub⟩

/-- A size of a list that is reported has its own problem. -/
theorem exists_of_mem (h : AllReported zs ps) {z : SharedSize} (hz : z ∈ zs) :
    ∃ p ∈ ps, z.IsReportedBy p := by
  induction h with
  | nil => cases hz
  | cons hreported _ ih =>
      rcases List.mem_cons.mp hz with rfl | hz
      · exact ⟨_, List.mem_cons_self, hreported⟩
      · obtain ⟨p, hp, hreported⟩ := ih hz
        exact ⟨p, List.mem_cons_of_mem _ hp, hreported⟩
  | cons_right _ ih =>
      obtain ⟨p, hp, hreported⟩ := ih hz
      exact ⟨p, List.mem_cons_of_mem _ hp, hreported⟩

end AllReported

namespace Storage

variable {s : Scope} {var : Name}

/-- A dimension that mentions a variable which changes is reported. -/
theorem exists_boundProblem? (hs : s.isVariant var = true) {dim : Expr}
    (hdim : dim.mentions var = true) (array : Name) :
    ∃ p, boundProblem? s s.variantNames array dim = some p ∧
      SharedSize.IsReportedBy ⟨array, dim⟩ p := by
  obtain ⟨o, ho, rfl⟩ := Expr.mentions_iff.mp hdim
  have hfound : (s.firstVariant? dim).isSome = true := by
    rw [Scope.firstVariant?, Expr.firstOccurrence?_eq_find?, List.find?_isSome]
    exact ⟨o, ho, hs⟩
  obtain ⟨first, hfirst⟩ := Option.isSome_iff_exists.mp hfound
  refine ⟨.variantBound dim.span array first.1 first.2, ?_, first, ?_, rfl⟩
  · rw [boundProblem?_eq_map, hfirst]
    rfl
  · rw [Scope.firstVariant?, Expr.firstOccurrence?_eq_find?] at hfirst
    exact List.mem_of_find?_eq_some hfirst

/-- Where a variable varies, every dimension of an array that mentions it is reported. -/
theorem allReported_dims (hs : s.isVariant var = true) (array : Name) (dims : List Expr) :
    AllReported ((dims.filter (·.mentions var)).map (⟨array, ·⟩))
      (dims.filterMap (boundProblem? s s.variantNames array)) := by
  induction dims with
  | nil => exact .nil
  | cons dim rest ih =>
      by_cases hdim : dim.mentions var = true
      · obtain ⟨p, hp, hreported⟩ := exists_boundProblem? hs hdim array
        rw [List.filter_cons, if_pos hdim, List.filterMap_cons_some hp]
        exact .cons hreported ih
      · rw [List.filter_cons, if_neg hdim]
        apply ih.mono
        rw [List.filterMap_cons]
        split
        · exact .refl _
        · exact List.sublist_cons_self _ _

/-- Where a variable varies, a declaration's sizes that see it are all reported. -/
theorem allReported_declaration (hs : s.isVariant var = true) (d : Declaration) :
    AllReported (d.sizesSeeing var) (variantBounds [(s, d)]) := by
  rw [variantBounds_singleton, Declaration.sizesSeeing]
  split
  case isTrue =>
    unfold boundProblems
    generalize d.declarators = ds
    induction ds with
    | nil => exact .nil
    | cons one rest ih =>
        apply (allReported_dims hs one.name one.dims).append
        split
        · exact .nil
        · exact ih
  case isFalse => exact .nil

/-- Where a variable varies, so are those of a loop's init clause. -/
theorem allReported_init (hs : s.isVariant var = true) (header : LoopHeader) :
    AllReported (header.sizesSeeing var) (variantBounds (judgedInit header.init s)) := by
  unfold LoopHeader.sizesSeeing judgedInit
  match header.init with
  | some (.decl d) => exact allReported_declaration hs d
  | some (.expr _) => exact .nil
  | none => exact .nil

mutual

/-- **Every dimension that mentions a variable which changes is reported**, as long as the name
means that variable.  The induction is on the statement; that the variable still changes at
a statement further on is what `isVariant_after` says of those in front of it. -/
theorem allReported : ∀ (st : Stmt) {s : Scope} {var : Name}, s.isVariant var = true →
    AllReported (st.sizesSeeing var) (variantBounds (judged st s))
  | .decl d _, _, _, hs => allReported_declaration hs d
  | .block stmts _ _, _, _, hs => allReportedList stmts hs
  | .ifThen _ a _, _, _, hs | .switch _ a _, _, _, hs => allReported a hs
  | .ifElse _ a b _, s, var, hs => by
      rw [Stmt.sizesSeeing, judged, variantBounds_append]
      have hb : ((after a s).leave s).isVariant var = true :=
        (grown_after a s).leave.isVariant List.not_mem_nil hs
      exact (allReported a hs).append (allReported b hb)
  | .forLoop header body _, s, var, hs => by
      rw [Stmt.sizesSeeing, judged, variantBounds_append]
      apply (allReported_init hs header).append
      split
      case isTrue => exact .nil
      case isFalse hdeclared =>
        have haround := (grown_aroundLoop header s).isVariant hdeclared hs
        exact allReported body ((grown_insideLoop header _).isVariant List.not_mem_nil haround)
  | .whileLoop _ body _, _, _, hs | .doWhile body _ _, _, _, hs => allReported body hs
  | .expr .., _, _, _ | .caseLabel .., _, _, _ | .breakJump .., _, _, _ | .continueJump .., _, _, _
  | .returnJump .., _, _, _ | .empty .., _, _, _ => .nil

/-- The same for a list of statements. -/
theorem allReportedList : ∀ (stmts : List Stmt) {s : Scope} {var : Name},
    s.isVariant var = true →
      AllReported (Stmt.sizesSeeingList var stmts) (variantBounds (judgedList stmts s))
  | [], _, _, _ => .nil
  | st :: rest, s, var, hs => by
      rw [Stmt.sizesSeeingList, judgedList, variantBounds_append]
      apply (allReported st hs).append
      split
      case isTrue => exact .nil
      case isFalse hdeclared => exact allReportedList rest (isVariant_after hdeclared hs)

end

/-! ## The start of a body -/

/-- Names bound as loop-variant vary, and what varied before still does. -/
theorem isVariant_bindAll_iff (names : List Name) (s : Scope) :
    (s.bindAll names true).isVariant var = true ↔ var ∈ names ∨ s.isVariant var = true := by
  induction names generalizing s with
  | nil => simp [Scope.bindAll]
  | cons name rest ih =>
      have hbind : (s.bind name true).isVariant var = true ↔
          var = name ∨ s.isVariant var = true := by
        change Binding.marked (⟨name, true⟩ :: s.bindings) var = true ↔ _
        rw [Binding.marked_cons]
        by_cases hname : name = var
        · simp [hname]
        · simp only [hname, if_false, Ne.symm hname, false_or]
          rfl
      change ((s.bind name true).bindAll rest true).isVariant var = true ↔ _
      rw [ih, hbind, List.mem_cons]
      tauto

/-- What changes at the start of a body: what the loop is taken to iterate over, and what changes
around the loop. -/
theorem isVariant_insideLoop_iff (header : LoopHeader) (around : Scope) :
    (insideLoop header around).isVariant var = true ↔
      var ∈ inductionNames header.init ∨ around.isVariant var = true :=
  isVariant_bindAll_iff _ _

end Storage

/-! ## The two cases apart -/

open Storage

variable {kernel : Function} {slot : BlockSlot} {names : Interner} {registry : Registry}

/-- What is found in the statement in a slot is found in the kernel. -/
theorem sublist_variantBounds_fill (kernel : Function) (slot : BlockSlot) (st : Stmt)
    (names : Interner) (registry : Registry) :
    (variantBounds (judged st (slot.scope (atStart kernel)))).Sublist
      ((kernel.withStmts (slot.fill st)).variantBounds names registry) := by
  have hscope : after st (slot.scope (atStart kernel)) =
      after st (slot.scope (atStart kernel)) := rfl
  obtain ⟨-, front, back, hfill, -⟩ := slot.replaced (atStart kernel) hscope
  have hjudged : (kernel.withStmts (slot.fill st)).judged =
      front ++ (judgedList [st] (slot.scope (atStart kernel)) ++ back) := hfill
  rw [Function.variantBounds_eq, hjudged, variantBounds_append, variantBounds_append, judgedList,
    judgedList, List.append_nil]
  exact (List.sublist_append_left _ _).trans (List.sublist_append_right _ _)

/-- Two statements with the same bounds that come to the same scope are alike to the kernel. -/
theorem variantBounds_fill_congr {st st' : Stmt}
    (hscope : after st (slot.scope (atStart kernel)) = after st' (slot.scope (atStart kernel)))
    (hbounds : variantBounds (judged st (slot.scope (atStart kernel))) =
      variantBounds (judged st' (slot.scope (atStart kernel)))) :
    (kernel.withStmts (slot.fill st)).variantBounds names registry =
      (kernel.withStmts (slot.fill st')).variantBounds names registry := by
  obtain ⟨-, front, back, hfill, hfill'⟩ := slot.replaced (atStart kernel) hscope
  have hjudged : (kernel.withStmts (slot.fill st)).judged =
      front ++ (judgedList [st] (slot.scope (atStart kernel)) ++ back) := hfill
  have hjudged' : (kernel.withStmts (slot.fill st')).judged =
      front ++ (judgedList [st'] (slot.scope (atStart kernel)) ++ back) := hfill'
  rw [Function.variantBounds_eq, Function.variantBounds_eq, hjudged, hjudged']
  simp only [judgedList, List.append_nil, variantBounds_append, hbounds]

/-- A shared array that is sized by a variable. -/
def Declaration.sizedBy (array var : Name) (place : Span) : Declaration :=
  ⟨{ base := .int }, [⟨array, [.ident var place], none, place⟩], [⟨.shared, place⟩], place⟩

theorem Declaration.sizesSeeing_sizedBy (array var : Name) (place : Span) :
    (sizedBy array var place).sizesSeeing var = [⟨array, .ident var place⟩] := by
  simp [sizesSeeing, sizedBy, role, DeclRole.ofKind?, Declarator.sizesSeeing, Expr.mentions,
    Expr.firstOccurrence?]

/-- It is no problem where the variable does not change. -/
theorem variantBounds_sizedBy {s : Scope} {var : Name} (hs : s.isVariant var = false)
    (array : Name) (place : Span) : variantBounds [(s, .sizedBy array var place)] = [] := by
  have hdim : boundProblem? s s.variantNames array (.ident var place) = none := by
    rw [boundProblem?_eq_map, Scope.firstVariant?, Expr.firstOccurrence?, hs]
    rfl
  rw [variantBounds_singleton]
  split
  · simp [boundProblems, Declaration.sizedBy, hdim]
  · rfl

/-- The bounds in the header of a loop, and those in its body. -/
theorem variantBounds_loop (header : LoopHeader) (stmts : List Stmt) (span : Span) (s : Scope) :
    variantBounds (judged (.forLoop header (.block stmts span span) span) s) =
      variantBounds (judgedInit header.init s) ++
        variantBounds (judgedList stmts (insideLoop header (aroundLoop header.init s))) :=
  variantBounds_append _ _

/-- Some span is that of no problem in a list. -/
theorem exists_span_ne (ps : List Problem) : ∃ place : Span, ∀ p ∈ ps, p.span ≠ place := by
  have hbound : ∃ n, ∀ p ∈ ps, p.span.start < n := by
    induction ps with
    | nil => exact ⟨0, List.forall_mem_nil _⟩
    | cons p rest ih =>
        obtain ⟨n, hn⟩ := ih
        refine ⟨max n (p.span.start + 1), List.forall_mem_cons.mpr ⟨by omega, ?_⟩⟩
        intro q hq
        have hlt := hn q hq
        omega
  obtain ⟨n, hn⟩ := hbound
  refine ⟨⟨n, n⟩, fun p hp heq => ?_⟩
  have hlt := hn p hp
  rw [heq] at hlt
  exact Nat.lt_irrefl n hlt

/-- **A body that tells the cases apart.**  If a variable does not change at the start of the
body of a loop, then an array that is sized by it there is not reported.  The array is put at a
place that no other problem is about. -/
theorem exists_body_not_allReported (header : LoopHeader) (span : Span) {var : Name}
    (hvar : (insideLoop header (aroundLoop header.init
      (slot.scope (atStart kernel)))).isVariant var = false) :
    ∃ body : Stmt, ¬ AllReported (body.sizesSeeing var)
      ((kernel.withStmts (slot.fill (.forLoop header body span))).variantBounds names
        registry) := by
  let found (stmts : List Stmt) : List Problem :=
    (kernel.withStmts (slot.fill (.forLoop header (.block stmts span span) span))).variantBounds
      names registry
  have hfound : ∀ place : Span, found [.decl (.sizedBy .empty var place) span] = found [] := by
    intro place
    apply variantBounds_fill_congr
    · simp only [after, afterList, Scope.declare, Declaration.sizedBy, List.foldl_cons,
        List.foldl_nil, Scope.leave_bind, Scope.leave_self]
    · rw [variantBounds_loop, variantBounds_loop]
      congr 1
      exact variantBounds_sizedBy hvar .empty place
  obtain ⟨place, hplace⟩ := exists_span_ne (found [])
  refine ⟨.block [.decl (.sizedBy .empty var place) span] span span, ?_⟩
  intro hreported
  have hsees : (⟨.empty, .ident var place⟩ : SharedSize) ∈
      Stmt.sizesSeeing var (.block [.decl (.sizedBy .empty var place) span] span span) := by
    rw [Stmt.sizesSeeing, Stmt.sizesSeeingList, Stmt.sizesSeeing,
      Declaration.sizesSeeing_sizedBy]
    exact List.mem_append_left _ List.mem_cons_self
  obtain ⟨p, hp, o, -, rfl⟩ := hreported.exists_of_mem hsees
  change _ ∈ found _ at hp
  rw [hfound] at hp
  exact hplace _ hp rfl

/-- **A name in the body of a loop** with an init expression: all dimensions that mention it are
reported, whatever the body is, if and only if the loop iterates over it or it changes in front of
the loop anyway. -/
theorem allReported_bodies_iff (kernel : Function) (names : Interner) (registry : Registry)
    (slot : BlockSlot) (header : LoopHeader) (span : Span) (var : Name)
    (haround : aroundLoop header.init (slot.scope (atStart kernel)) = slot.scope (atStart kernel)) :
    (∀ body : Stmt, AllReported (body.sizesSeeing var)
      ((kernel.withStmts (slot.fill (.forLoop header body span))).variantBounds names registry)) ↔
    var ∈ inductionNames header.init ∨ (slot.scope (atStart kernel)).isVariant var = true := by
  rw [← isVariant_insideLoop_iff]
  constructor
  · intro hall
    by_contra hvar
    rw [Bool.not_eq_true, ← haround] at hvar
    obtain ⟨body, hbody⟩ := exists_body_not_allReported header span hvar
    exact hbody (hall body)
  · intro hvar body
    have hsub := sublist_variantBounds_fill kernel slot (.forLoop header body span) names registry
    refine (allReported body hvar).mono (.trans ?_ hsub)
    rw [judged, variantBounds_append, haround]
    exact List.sublist_append_right _ _

/-- **The targets of an init expression.**  Every statement of a kernel stands in a slot, and in
the slot there may be a loop with an init expression.  For each variable that the expression
assigns, all dimensions that mention it in the body are reported, whatever the body is, if and
only if the rules take it for the one that the loop iterates over, or it changes in front of the
loop anyway. -/
theorem init_targets_reported_iff (kernel : Function) (names : Interner) (registry : Registry) :
    (∀ x ∈ kernel.placed, ∃ slot : BlockSlot, kernel.body.stmts = slot.fill x.stmt) ∧
    ∀ (slot : BlockSlot) (header : LoopHeader) (span : Span) (e : Expr),
      header.init = some (.expr e) → ∀ var ∈ Lexical.initTargets e,
        ((∀ body : Stmt, AllReported (body.sizesSeeing var)
          ((kernel.withStmts (slot.fill (.forLoop header body span))).variantBounds names
            registry)) ↔
        var ∈ inductionNames header.init ∨
          (slot.scope (atStart kernel)).isVariant var = true) := by
  refine ⟨fun x hx => BlockSlot.exists_of_mem_placed hx, ?_⟩
  intro slot header span e hinit var _
  apply allReported_bodies_iff
  rw [hinit]
  rfl

/-- A slot in a group loop, behind two variables and in front of the loop over items. -/
def BlockSlot.groupSample : BlockSlot :=
  let place (n : Nat) : Span := ⟨n, n + 1⟩
  let declaration (var : Name) (init : Option Expr) (n : Nat) : Declaration :=
    ⟨{ base := .int }, [⟨var, [], init, place n⟩], [], place n⟩
  let header (kind : MarkerKind) (var : Name) (n : Nat) : LoopHeader :=
    let value : Expr := .ident var (place n)
    ⟨some (.decl (declaration var (some (.int 0 (place n))) n)),
      some (.binary .lt value (.int 4 (place n)) (place n)),
      some (.assign .add value (.int 1 (place n)) (place n)), [⟨kind, place n⟩], place n⟩
  let items : Stmt := .forLoop (header .inner ⟨6⟩ 90) (.block [] (place 90) (place 90)) (place 90)
  let locals : List Stmt :=
    [.decl (declaration ⟨1⟩ none 20) (place 20), .decl (declaration ⟨2⟩ none 21) (place 21)]
  .among []
    (.forLoop (header .outer ⟨5⟩ 10) (.block (.among locals .here [items]) (place 10) (place 10))
      (place 10)) []

/-- The header of a plain loop with an init expression. -/
def LoopHeader.assigningSample (e : Expr) : LoopHeader := ⟨some (.expr e), none, none, [], ⟨50, 51⟩⟩

/-- A body with two shared arrays, one for each of the two variables. -/
def Stmt.sizingSample : Stmt :=
  .block [.decl (.sizedBy ⟨3⟩ ⟨1⟩ ⟨60, 61⟩) ⟨60, 61⟩, .decl (.sizedBy ⟨4⟩ ⟨2⟩ ⟨70, 71⟩) ⟨70, 71⟩]
    ⟨58, 72⟩ ⟨58, 72⟩

/-- The kernel with such a loop in the slot. -/
def Function.assigningSample (e : Expr) : Function :=
  Function.bareSample.withStmts
    (BlockSlot.groupSample.fill (.forLoop (.assigningSample e) .sizingSample ⟨50, 72⟩))

/-- The first variable gets a value. -/
def Expr.firstSample (value : Expr) : Expr := .assign .assign (.ident ⟨1⟩ ⟨52, 53⟩) value ⟨52, 56⟩

/-- The second variable gets the value 0. -/
def Expr.secondSample : Expr :=
  .assign .assign (.ident ⟨2⟩ ⟨54, 55⟩) (.int 0 ⟨55, 56⟩) ⟨54, 56⟩

/-- The first target of a chain counts, and the array that it sizes is reported. -/
theorem init_targets_reported_groupSample :
    let e : Expr := .firstSample .secondSample
    (LoopHeader.assigningSample e).init = some (.expr e) ∧ (⟨1⟩ : Name) ∈ Lexical.initTargets e ∧
      Stmt.sizingSample.sizesSeeing ⟨1⟩ = [⟨⟨3⟩, .ident ⟨1⟩ ⟨60, 61⟩⟩] ∧
      AllReported (Stmt.sizingSample.sizesSeeing ⟨1⟩)
        ((Function.assigningSample e).variantBounds .initial .empty) := by
  intro e
  have htarget : (⟨1⟩ : Name) ∈ Lexical.initTargets e := by decide
  have hiff := (init_targets_reported_iff .bareSample .initial .empty).2 .groupSample
    (.assigningSample e) ⟨50, 72⟩ e rfl ⟨1⟩ htarget
  exact ⟨rfl, htarget, rfl, hiff.mpr (.inl (by decide)) .sizingSample⟩

/-- The second variable is a target of the chain and of a comma list, and yet the array that it
sizes is not reported.  In the list, not even the first target counts. -/
theorem init_targets_reported_ne :
    let chain : Expr := .firstSample .secondSample
    let list : Expr := .comma [.firstSample (.int 0 ⟨53, 54⟩), .secondSample] ⟨52, 56⟩
    let found (e : Expr) : List Problem :=
      (Function.assigningSample e).variantBounds .initial .empty
    (⟨2⟩ : Name) ∈ Lexical.initTargets chain ∧ (⟨2⟩ : Name) ∈ Lexical.initTargets list ∧
      Stmt.sizingSample.sizesSeeing ⟨2⟩ = [⟨⟨4⟩, .ident ⟨2⟩ ⟨70, 71⟩⟩] ∧
      found chain = [.variantBound ⟨60, 61⟩ ⟨3⟩ ⟨1⟩ ⟨60, 61⟩] ∧ found list = [] ∧
      ¬ AllReported (Stmt.sizingSample.sizesSeeing ⟨2⟩) (found chain) ∧
      ¬ AllReported (Stmt.sizingSample.sizesSeeing ⟨2⟩) (found list) := by
  intro chain list found
  have hsees : Stmt.sizingSample.sizesSeeing ⟨2⟩ = [⟨⟨4⟩, .ident ⟨2⟩ ⟨70, 71⟩⟩] := rfl
  have hnot : ∀ ps : List Problem, (∀ p ∈ ps, p.span ≠ ⟨70, 71⟩) →
      ¬ AllReported (Stmt.sizingSample.sizesSeeing ⟨2⟩) ps := by
    intro ps hps hreported
    rw [hsees] at hreported
    obtain ⟨p, hp, o, -, rfl⟩ := hreported.exists_of_mem List.mem_cons_self
    exact hps _ hp rfl
  exact ⟨by decide, by decide, hsees, by decide, by decide, hnot _ (by decide), hnot _ (by decide)⟩

end KernelCheck
