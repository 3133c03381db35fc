import KernelCheck.Proofs.Storage.Marks
import KernelCheck.Proofs.Storage.Scopes
import Mathlib.Data.List.Nodup

/-!
# Scopes are restored

The traversal of a kernel carries the loops around a point and the bindings in scope there, and
it leaves a scope by cutting both down to the lengths that they had in front of it.  That is
right only if nothing below these lengths is taken away or moved in the meantime, and whether it
is may not depend on how far a traversal gets before the findings close.

1. `Scope.Encloses` — a point inside a scope, where both lists have only grown.
2. `Scope.Encloses.leave` — from such a point the scope is restored, marks apart.
3. `Storage.encloses_stmtList` — a list of statements ends at such a point, cut short or not.
4. `Scope.Extended` — what assignments add.
5. `Storage.Leaves` — what a statement may make of a scope.

`scope_restored` says that it makes no more of it.
-/

namespace KernelCheck

namespace Binding

variable {bs cs : List Binding}

/-- A mark has no say in what is bound. -/
theorem Raised.names_eq (h : Raised bs cs) : names cs = names bs := by
  induction h with
  | nil => rfl
  | cons hbc _ ih => rw [names_cons, names_cons, hbc.1, ih]

/-- Only a name that is not bound cannot be marked. -/
theorem notMem_names_of_markFirst? {name : Name} (h : Scope.markFirst? name bs = none) :
    name ∉ names bs := by
  induction bs with
  | nil => exact List.not_mem_nil
  | cons b rest ih =>
      rw [Scope.markFirst?] at h
      split at h
      case isTrue => cases h
      case isFalse hb =>
        rw [names_cons, List.mem_cons, not_or]
        exact ⟨Ne.symm hb, ih (Option.map_eq_none_iff.mp h)⟩

end Binding

namespace Scope

/-- The same loops and the same variables in the same order, some of which may have turned out to
change. -/
structure Restored (s t : Scope) : Prop where
  frames : t.frames = s.frames
  bindings : Binding.Raised s.bindings t.bindings

/-- The second scope belongs to a point inside the first one: there may be more loops around it,
and more variables, but only in front of those of the first one. -/
structure Encloses (s t : Scope) : Prop where
  frames : s.frames <:+ t.frames
  bindings : ∃ new old, t.bindings = new ++ old ∧ Binding.Raised s.bindings old

/-- What assignments make of a scope: in front of the former variables there may be new ones.
They have names that were not bound, and no two of them have the same. -/
structure Extended (s t : Scope) : Prop where
  frames : t.frames = s.frames
  bindings : ∃ new old, t.bindings = new ++ old ∧ Binding.Raised s.bindings old ∧
    (Binding.names new).Nodup ∧ (Binding.names new).Disjoint (Binding.names s.bindings)

variable {s t u : Scope}

/-- A scope that is restored still encloses. -/
theorem Restored.encloses (h : s.Restored t) : s.Encloses t where
  frames := h.frames ▸ List.suffix_rfl
  bindings := ⟨[], t.bindings, rfl, h.bindings⟩

/-- What is restored twice is restored. -/
theorem Restored.trans (h : s.Restored t) (h' : t.Restored u) : s.Restored u where
  frames := h'.frames.trans h.frames
  bindings := h.bindings.trans h'.bindings

/-- A scope that is extended still encloses. -/
theorem Extended.encloses (h : s.Extended t) : s.Encloses t := by
  obtain ⟨new, old, ht, hold, -⟩ := h.bindings
  exact ⟨h.frames ▸ List.suffix_rfl, new, old, ht, hold⟩

/-- A scope is left by its lengths alone. -/
theorem Restored.leave_eq (h : s.Restored t) (inside : Scope) :
    inside.leave t = inside.leave s := by
  rw [leave, leave, h.frames, h.bindings.length_eq]

namespace Encloses

/-- A scope encloses itself. -/
theorem refl (s : Scope) : s.Encloses s := ⟨List.suffix_rfl, [], s.bindings, rfl, .refl _⟩

/-- Further bindings leave the scope below enclosing. -/
theorem cons (new : List Binding) (s : Scope) :
    s.Encloses { s with bindings := new ++ s.bindings } :=
  ⟨List.suffix_rfl, new, s.bindings, rfl, .refl _⟩

/-- What encloses an enclosing scope encloses. -/
theorem trans (h : s.Encloses t) (h' : t.Encloses u) : s.Encloses u := by
  obtain ⟨new, old, ht, hold⟩ := h.bindings
  obtain ⟨new', between, hu, hbetween⟩ := h'.bindings
  rw [ht] at hbetween
  obtain ⟨new'', old', rfl, -, hold'⟩ := hbetween.exists_append
  exact ⟨h.frames.trans h'.frames, new' ++ new'', old', by simp [hu], hold.trans hold'⟩

/-- **Cutting down restores.**  As both lists have only grown, what is left after the cut is what
has become of the scope. -/
theorem leave (h : s.Encloses t) : s.Restored (t.leave s) := by
  obtain ⟨loops, hloops⟩ := h.frames
  obtain ⟨new, old, ht, hold⟩ := h.bindings
  have hcut : (t.leave s).bindings = old := by
    rw [Scope.leave, ht, List.length_append, ← hold.length_eq, Nat.add_sub_cancel, List.drop_left]
  exact ⟨frames_leave loops hloops.symm, hcut ▸ hold⟩

end Encloses

/-- A declaration puts its names in front of the others, the last one foremost. -/
theorem declare_eq (s : Scope) (ds : List Declarator) : ∃ new,
    s.declare ds = { s with bindings := new ++ s.bindings } ∧
      Binding.names new = (ds.map (·.name)).reverse := by
  induction ds generalizing s with
  | nil => exact ⟨[], rfl, rfl⟩
  | cons d rest ih =>
      let b : Binding := ⟨d.name, (d.init.bind s.firstVariant?).isSome⟩
      obtain ⟨new, hnew, hnames⟩ := ih (s.bind b.name b.variant)
      refine ⟨new ++ [b], ?_, ?_⟩
      · rw [List.append_assoc]
        exact hnew
      · rw [List.map_cons, List.reverse_cons, ← hnames]
        exact List.map_append

/-! ## Assignments -/

namespace Extended

/-- A scope is extended by nothing. -/
theorem refl (s : Scope) : s.Extended s :=
  ⟨rfl, [], s.bindings, rfl, .refl _, .nil, List.disjoint_nil_left _⟩

/-- What the second step adds was not bound after the first one, so it was not bound before it
and is none of what the first one has added. -/
theorem trans (h : s.Extended t) (h' : t.Extended u) : s.Extended u := by
  obtain ⟨new, old, ht, hold, hnodup, hdisjoint⟩ := h.bindings
  obtain ⟨new', between, hu, hbetween, hnodup', hdisjoint'⟩ := h'.bindings
  rw [ht] at hbetween
  obtain ⟨new'', old', rfl, hraised, hold'⟩ := hbetween.exists_append
  have hbound : Binding.names t.bindings = Binding.names new ++ Binding.names s.bindings := by
    rw [ht, ← hold.names_eq]
    exact List.map_append
  have hnames : Binding.names (new' ++ new'') = Binding.names new' ++ Binding.names new := by
    rw [← hraised.names_eq]
    exact List.map_append
  rw [hbound, List.disjoint_append_right] at hdisjoint'
  refine ⟨h'.frames.trans h.frames, new' ++ new'', old', by simp [hu], hold.trans hold', ?_, ?_⟩
  · rw [hnames]
    exact hnodup'.append hnodup hdisjoint'.1
  · rw [hnames, List.disjoint_append_left]
    exact ⟨hdisjoint'.2, hdisjoint⟩

/-- A mark extends the scope: it stays in a binding, or binds its own name. -/
theorem setVariant (s : Scope) (name : Name) : s.Extended (s.setVariant name) := by
  cases hmark : markFirst? name s.bindings with
  | none =>
      have hunbound : name ∉ Binding.names s.bindings := Binding.notMem_names_of_markFirst? hmark
      rw [setVariant_of_unbound hunbound]
      exact ⟨rfl, [⟨name, true⟩], s.bindings, rfl, .refl _, List.nodup_singleton name,
        List.singleton_disjoint.mpr hunbound⟩
  | some bindings =>
      rw [setVariant_of_markFirst? hmark]
      exact ⟨rfl, [], bindings, rfl, .of_markFirst? hmark, .nil, List.disjoint_nil_left _⟩

mutual

/-- So does an expression, through the marks of its assignments. -/
theorem assigned : ∀ (e : Expr) (s : Scope), s.Extended (Scope.assigned e s)
  | .assign _ target value _, s => by
      have hvalue := assigned value s
      rw [Scope.assigned]
      cases target.ident? with
      | none => exact hvalue
      | some name =>
          dsimp only
          split
          · exact hvalue.trans (setVariant _ name)
          · exact hvalue
  | .comma parts _, s => assignedList parts s
  | .ident .., s | .int .., s | .float .., s | .char .., s | .string .., s | .unary .., s
  | .binary .., s | .call .., s | .index .., s | .member .., s | .cast .., s | .ternary .., s
  | .sizeOfType .., s => refl s

/-- And a list of expressions. -/
theorem assignedList : ∀ (es : List Expr) (s : Scope), s.Extended (Scope.assignedList es s)
  | [], s => refl s
  | e :: rest, s => (assigned e s).trans (assignedList rest _)

end

end Extended

end Scope

/-! ## Statements -/

namespace Storage

/-- A branch, which has a scope of its own even without braces around it. -/
def branch (st : Stmt) (s : Scope) (f : Findings) : Scope × Findings :=
  let (inside, f) := stmt st s f
  (inside.leave s, f)

/-- The body of a loop that iterates over some variables. -/
def loopBody (role : LoopRole) (span : Span) (names : List Name) (body : Stmt) (s : Scope)
    (f : Findings) : Scope × Findings :=
  let (inside, f) := stmt body ((s.enter role span).bindAll names true) f
  (inside.leave s, f)

/-- A `for` loop: the init clause around it, the body inside, and the scope before it again. -/
theorem stmt_forLoop (header : LoopHeader) (body : Stmt) (span : Span) (s : Scope)
    (f : Findings) :
    stmt (.forLoop header body span) s f =
      let (around, f) := initClause header.init s f
      let (behind, f) :=
        loopBody header.role header.span (inductionNames header.init) body around f
      (behind.leave s, f) := rfl

/-- A `while` loop is a plain loop with no variable of its own. -/
theorem stmt_whileLoop (condition : Expr) (body : Stmt) (span : Span) (s : Scope) (f : Findings) :
    stmt (.whileLoop condition body span) s f = loopBody .plain span [] body s f := rfl

/-- And so is a `do` loop. -/
theorem stmt_doWhile (body : Stmt) (condition : Expr) (span : Span) (s : Scope) (f : Findings) :
    stmt (.doWhile body condition span) s f = loopBody .plain span [] body s f := rfl

/-- An `if` without `else` is one branch. -/
theorem stmt_ifThen (condition : Expr) (a : Stmt) (span : Span) (s : Scope) (f : Findings) :
    stmt (.ifThen condition a span) s f = branch a s f := rfl

/-- And so is a `switch`. -/
theorem stmt_switch (scrutinee : Expr) (body : Stmt) (span : Span) (s : Scope) (f : Findings) :
    stmt (.switch scrutinee body span) s f = branch body s f := rfl

/-- What a statement may leave behind it.  A declaration puts its names in front of the others and
changes nothing else, an expression adds only names that were not bound, whatever opens a scope
restores it, and the rest changes nothing. -/
def Leaves : Stmt → Scope → Scope → Prop
  | .decl d _, s, t => ∃ new, t = { s with bindings := new ++ s.bindings } ∧
      Binding.names new = (d.declarators.map (·.name)).reverse
  | .expr .., s, t => s.Extended t
  | .block .., s, t | .forLoop .., s, t | .whileLoop .., s, t | .doWhile .., s, t
  | .ifThen .., s, t | .ifElse .., s, t | .switch .., s, t => s.Restored t
  | .caseLabel .., s, t | .breakJump .., s, t | .continueJump .., s, t | .returnJump .., s, t
  | .empty .., s, t => t = s

/-- Whatever a statement leaves behind still encloses. -/
theorem Leaves.encloses {st : Stmt} {s t : Scope} (h : Leaves st s t) : s.Encloses t := by
  match st, h with
  | .decl .., ⟨new, ht, _⟩ => exact ht ▸ .cons new s
  | .expr .., h => exact Scope.Extended.encloses h
  | .block .., h | .forLoop .., h | .whileLoop .., h | .doWhile .., h | .ifThen .., h
  | .ifElse .., h | .switch .., h => exact Scope.Restored.encloses h
  | .caseLabel .., rfl | .breakJump .., rfl | .continueJump .., rfl | .returnJump .., rfl
  | .empty .., rfl => exact .refl t

/-- An init clause leaves the scope before the loop enclosing. -/
theorem encloses_initClause (init : Option ForInit) (s : Scope) (f : Findings) :
    s.Encloses (initClause init s f).1 := by
  match init with
  | some (.decl d) =>
      obtain ⟨new, hnew, -⟩ := s.declare_eq d.declarators
      have hdecl : (initClause (some (.decl d)) s f).1 = { s with bindings := new ++ s.bindings } :=
        hnew
      rw [hdecl]
      exact .cons new s
  | some (.expr _) => exact .refl s
  | none => exact .refl s

/-- And so does entering the loop's body. -/
theorem encloses_bindAll (role : LoopRole) (span : Span) (names : List Name) (s : Scope) :
    s.Encloses ((s.enter role span).bindAll names true) := by
  obtain ⟨new, old, hnew, hold, -⟩ := Scope.Grown.bindAllMarked (s.enter role span) names
  refine ⟨?_, new, old, hnew, hold⟩
  rw [Scope.frames_bindAll]
  exact List.suffix_cons ⟨role, span⟩ s.frames

section

variable {body : Stmt} (hbody : ∀ (s : Scope) (f : Findings), Leaves body s (stmt body s f).1)
include hbody

/-- Leaving a branch restores the scope before it. -/
theorem restored_branch (s : Scope) (f : Findings) : s.Restored (branch body s f).1 :=
  (hbody s f).encloses.leave

/-- Leaving a loop's body restores the scope around the loop. -/
theorem restored_loopBody (role : LoopRole) (span : Span) (names : List Name) (s : Scope)
    (f : Findings) : s.Restored (loopBody role span names body s f).1 :=
  ((encloses_bindAll role span names s).trans (hbody _ f).encloses).leave

/-- The variables of a header are in scope until its loop is left. -/
theorem restored_forLoop (header : LoopHeader) (span : Span) (s : Scope) (f : Findings) :
    s.Restored (stmt (.forLoop header body span) s f).1 := by
  have hinit := encloses_initClause header.init s f
  have hloop := restored_loopBody hbody header.role header.span (inductionNames header.init)
    (initClause header.init s f).1 (initClause header.init s f).2
  rw [stmt_forLoop]
  exact (hinit.trans hloop.encloses).leave

/-- Both alternatives start in the scope around them: the second one is left for the scope behind
the first one, which has the same lengths. -/
theorem stmt_ifElse (condition : Expr) (b : Stmt) (span : Span) (s : Scope) (f : Findings) :
    stmt (.ifElse condition body b span) s f =
      branch b (branch body s f).1 (branch body s f).2 := by
  have hleave := (restored_branch hbody s f).leave_eq (stmt b (branch body s f).1
    (branch body s f).2).1
  exact Prod.ext hleave.symm rfl

end

mutual

/-- **A statement leaves no more than it may.**  The induction is on the statement. -/
theorem leaves_stmt : ∀ (st : Stmt) (s : Scope) (f : Findings), Leaves st s (stmt st s f).1
  | .decl d _, s, _ => s.declare_eq d.declarators
  | .expr e _, s, _ => .assigned e s
  | .block stmts _ _, s, f => (encloses_stmtList stmts s f).leave
  | .forLoop header body span, s, f => restored_forLoop (leaves_stmt body) header span s f
  | .whileLoop c body span, s, f => by
      rw [stmt_whileLoop]
      exact restored_loopBody (leaves_stmt body) .plain span [] s f
  | .doWhile body c span, s, f => by
      rw [stmt_doWhile]
      exact restored_loopBody (leaves_stmt body) .plain span [] s f
  | .ifThen c a span, s, f => by
      rw [stmt_ifThen]
      exact restored_branch (leaves_stmt a) s f
  | .switch e body span, s, f => by
      rw [stmt_switch]
      exact restored_branch (leaves_stmt body) s f
  | .ifElse c a b span, s, f => by
      rw [stmt_ifElse (leaves_stmt a)]
      exact (restored_branch (leaves_stmt a) s f).trans (restored_branch (leaves_stmt b) _ _)
  | .caseLabel .., _, _ | .breakJump .., _, _ | .continueJump .., _, _ | .returnJump .., _, _
  | .empty .., _, _ => rfl

/-- A list of statements ends inside the scope in which it starts.  The findings may close
anywhere, for the point at which the list is given up is inside its scope like the one at its
end. -/
theorem encloses_stmtList : ∀ (stmts : List Stmt) (s : Scope) (f : Findings),
    s.Encloses (stmtList stmts s f).1
  | [], s, _ => .refl s
  | st :: rest, s, f => by
      rw [stmtList]
      split
      · exact .refl s
      · exact (leaves_stmt st s f).encloses.trans (encloses_stmtList rest _ _)

end

end Storage

open Storage in
/-- **Whatever opens a scope restores it.**  Behind a block, a branch, a loop and the body of a
loop there are the loops and the variables that were in front of it, in the same order, and a
mark that a variable had is still there.  Only declarations and expressions add variables.  The
findings may be closed before or at any point on the way. -/
theorem scope_restored (st : Stmt) (s : Scope) (f : Findings) :
    Leaves st s (stmt st s f).1 ∧ s.Restored (branch st s f).1 ∧
      ∀ role span names, s.Restored (loopBody role span names st s f).1 := by
  refine ⟨leaves_stmt st s f, restored_branch (leaves_stmt st) s f, ?_⟩
  intro role span names
  exact restored_loopBody (leaves_stmt st) role span names s f

end KernelCheck
