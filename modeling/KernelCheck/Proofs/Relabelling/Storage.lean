import KernelCheck.Proofs.Relabelling.Families
import KernelCheck.Proofs.Storage.Judged

/-!
# Shared and exclusive variables of a relabelled kernel

A scope looks a name up by comparing it with the names that are bound, so it
takes nothing but names that stay apart for a scope of a relabelled kernel to
be the scope of the kernel, relabelled.

* `Storage.after_relabel` — the scope behind a relabelled statement.
* `Storage.judged_relabel` — the declarations in a relabelled statement, each with
  its scope.
* `Function.storageProblems_relabel` — the family as a whole.
-/

namespace KernelCheck

variable {ρ : Relabelling}

def Frame.relabel (ρ : Relabelling) (f : Frame) : Frame := ⟨f.role, ρ.place f.span⟩

def Binding.relabel (ρ : Relabelling) (b : Binding) : Binding := ⟨ρ.var b.name, b.variant⟩

def Scope.relabel (ρ : Relabelling) (s : Scope) : Scope :=
  ⟨s.frames.map (·.relabel ρ), s.bindings.map (·.relabel ρ)⟩

namespace Scope

/-- A relabelled scope has an outer loop around it if the scope has. -/
theorem hasOuter_relabel (s : Scope) : (s.relabel ρ).hasOuter = s.hasOuter := by
  simp only [hasOuter, relabel, List.any_map]
  rfl

/-- The nearest inner loop is the relabelled one. -/
theorem nearestInner?_relabel (s : Scope) :
    (s.relabel ρ).nearestInner? = s.nearestInner?.map ρ.place := by
  simp only [nearestInner?, relabel, List.find?_map, Option.map_map]
  rfl

/-- New relabelled variables in a relabelled scope. -/
theorem bindAll_relabel (s : Scope) (names : List Name) (variant : Bool) :
    (s.relabel ρ).bindAll (names.map ρ.var) variant = (s.bindAll names variant).relabel ρ := by
  unfold bindAll
  induction names generalizing s with
  | nil => rfl
  | cons name rest ih => exact ih (s.bind name variant)

/-- A relabelled scope is left for a relabelled scope. -/
theorem leave_relabel (s outer : Scope) :
    (s.relabel ρ).leave (outer.relabel ρ) = (s.leave outer).relabel ρ := by
  simp [leave, relabel]

/-- A relabelled variable changes if the variable does, as no two variables become one. -/
theorem isVariant_relabel (hρ : Function.Injective ρ.var) (s : Scope) (name : Name) :
    (s.relabel ρ).isVariant (ρ.var name) = s.isVariant name := by
  have htest : ((fun b : Binding => b.name == ρ.var name) ∘ Binding.relabel ρ) =
      fun b => b.name == name := by
    funext b
    rw [Bool.eq_iff_iff, Function.comp_apply, beq_iff_eq, beq_iff_eq]
    exact hρ.eq_iff
  simp only [isVariant, relabel, List.find?_map, htest, Option.map_map]
  rfl

/-- The first mention of a variable that changes is the relabelled one. -/
theorem firstVariant?_relabel (hρ : Function.Injective ρ.var) (s : Scope) (e : Expr) :
    (s.relabel ρ).firstVariant? (e.relabel ρ) =
      (s.firstVariant? e).map (Prod.map ρ.var ρ.place) :=
  Expr.firstOccurrence?_relabel (isVariant_relabel hρ s) e

/-- The binding that is marked is the relabelled one. -/
theorem markFirst?_relabel (hρ : Function.Injective ρ.var) (name : Name)
    (bindings : List Binding) :
    markFirst? (ρ.var name) (bindings.map (·.relabel ρ)) =
      (markFirst? name bindings).map (·.map (·.relabel ρ)) := by
  induction bindings with
  | nil => rfl
  | cons b rest ih =>
      have hname : (b.relabel ρ).name = ρ.var name ↔ b.name = name := hρ.eq_iff
      rw [List.map_cons, markFirst?, markFirst?, ih]
      simp only [hname]
      split
      · rfl
      · cases markFirst? name rest <;> rfl

/-- A value that changes marks the relabelled variable. -/
theorem setVariant_relabel (hρ : Function.Injective ρ.var) (s : Scope) (name : Name) :
    (s.relabel ρ).setVariant (ρ.var name) = (s.setVariant name).relabel ρ := by
  have hmark := markFirst?_relabel hρ name s.bindings
  unfold setVariant
  simp only [relabel, hmark]
  cases markFirst? name s.bindings <;> rfl

/-- The new variables of a relabelled declaration. -/
theorem declare_relabel (hρ : Function.Injective ρ.var) (s : Scope) (ds : List Declarator) :
    (s.relabel ρ).declare (ds.map (·.relabel ρ)) = (s.declare ds).relabel ρ := by
  unfold declare
  induction ds generalizing s with
  | nil => rfl
  | cons d rest ih =>
      have hvalue : ((d.relabel ρ).init.bind (s.relabel ρ).firstVariant?).isSome =
          (d.init.bind s.firstVariant?).isSome := by
        cases hinit : d.init with
        | none => simp [Declarator.relabel, hinit]
        | some e => simp [Declarator.relabel, hinit, firstVariant?_relabel hρ]
      rw [List.map_cons, List.foldl_cons, List.foldl_cons, hvalue]
      exact ih (s.bind d.name _)

mutual

/-- What a relabelled expression statement makes known. -/
theorem assigned_relabel (hρ : Function.Injective ρ.var) : ∀ (e : Expr) (s : Scope),
    assigned (e.relabel ρ) (s.relabel ρ) = (assigned e s).relabel ρ
  | .assign _ target value _, s => by
      have hvalue := assigned_relabel hρ value s
      rw [Expr.relabel, assigned, assigned, hvalue, Expr.ident?_relabel]
      cases target.ident? with
      | none => rfl
      | some name =>
          simp only [Option.map_some, firstVariant?_relabel hρ, Option.isSome_map,
            setVariant_relabel hρ]
          split <;> rfl
  | .comma parts _, s => assignedList_relabel hρ parts s
  | .ident .., _ | .int .., _ | .float .., _ | .char .., _ | .string .., _ | .unary .., _
  | .binary .., _ | .call .., _ | .index .., _ | .member .., _ | .cast .., _ | .ternary .., _
  | .sizeOfType .., _ => rfl

theorem assignedList_relabel (hρ : Function.Injective ρ.var) : ∀ (es : List Expr) (s : Scope),
    assignedList (Expr.relabelList ρ es) (s.relabel ρ) = (assignedList es s).relabel ρ
  | [], _ => rfl
  | e :: rest, s => by
      rw [Expr.relabelList, assignedList, assignedList, assigned_relabel hρ e s,
        assignedList_relabel hρ rest]

end

end Scope

/-- A relabelled declaration has the same role. -/
theorem Declaration.role_relabel (d : Declaration) : (d.relabel ρ).role = d.role := by
  have hkind : ∀ m : Marker, DeclRole.ofKind? (m.relabel ρ).kind = DeclRole.ofKind? m.kind := by
    rintro ⟨kind, span⟩
    cases kind <;> rfl
  simp only [role, relabel, List.findSome?_map, Function.comp_def, hkind]

namespace Storage

/-- A relabelled declaration is in a wrong place if the declaration is. -/
theorem roleProblem?_relabel (s : Scope) (d : Declaration) :
    roleProblem? (s.relabel ρ) (d.relabel ρ) = (roleProblem? s d).map (·.relabel ρ) := by
  have hdeclarators : (d.relabel ρ).declarators = d.declarators.map (·.relabel ρ) := rfl
  unfold roleProblem?
  rw [hdeclarators, Declaration.role_relabel, Scope.hasOuter_relabel, Scope.nearestInner?_relabel]
  cases d.declarators with
  | nil => rfl
  | cons first rest =>
      cases d.role <;> cases s.hasOuter <;> cases s.nearestInner? <;> rfl

/-- A relabelled loop iterates over the relabelled variables. -/
theorem inductionNames_relabel (init : Option ForInit) :
    inductionNames (init.map (·.relabel ρ)) = (inductionNames init).map ρ.var := by
  match init with
  | none => rfl
  | some (.decl d) =>
      simp only [inductionNames, Option.map_some, ForInit.relabel, Declaration.relabel,
        List.map_map]
      rfl
  | some (.expr e) =>
      cases e with
      | assign op target value s =>
          simp only [inductionNames, Option.map_some, ForInit.relabel, Expr.relabel,
            Expr.ident?_relabel, Option.toList_map]
      | _ => rfl

/-- The start of the body of a relabelled loop. -/
theorem insideLoop_relabel (header : LoopHeader) (around : Scope) :
    insideLoop (header.relabel ρ) (around.relabel ρ) = (insideLoop header around).relabel ρ := by
  have hnames : inductionNames (header.relabel ρ).init =
      (inductionNames header.init).map ρ.var := inductionNames_relabel header.init
  rw [insideLoop, insideLoop, hnames, LoopHeader.role_relabel, ← Scope.bindAll_relabel]
  rfl

/-- A declaration with the scope that it is judged in, both relabelled. -/
def relabelJudged (ρ : Relabelling) : Scope × Declaration → Scope × Declaration :=
  Prod.map (·.relabel ρ) (·.relabel ρ)

/-- The dimensions of a relabelled declaration have the relabelled problems. -/
theorem boundProblems_relabel (hρ : Function.Injective ρ.var) (s : Scope) (d : Declaration) :
    boundProblems (s.relabel ρ) (d.relabel ρ) = (boundProblems s d).map (·.relabel ρ) := by
  have hdim : ∀ (array : Name) (dim : Expr),
      boundProblem? (s.relabel ρ) (s.relabel ρ).variantNames (ρ.var array) (dim.relabel ρ) =
        (boundProblem? s s.variantNames array dim).map (·.relabel ρ) := by
    intro array dim
    rw [boundProblem?_eq_map, boundProblem?_eq_map, Scope.firstVariant?_relabel hρ,
      Expr.span_relabel]
    cases s.firstVariant? dim <;> rfl
  have hdims : ∀ (array : Name) (dims : List Expr),
      (Expr.relabelList ρ dims).filterMap
          (boundProblem? (s.relabel ρ) (s.relabel ρ).variantNames (ρ.var array)) =
        (dims.filterMap (boundProblem? s s.variantNames array)).map (·.relabel ρ) := by
    intro array dims
    induction dims with
    | nil => rfl
    | cons dim rest ih =>
        rw [Expr.relabelList, List.filterMap_cons, List.filterMap_cons, ih, hdim]
        cases boundProblem? s s.variantNames array dim <;> rfl
  exact flatMap_relabel fun array _ => hdims array.name array.dims

/-- Relabelled declarations in relabelled scopes have the relabelled problems. -/
theorem problemsOfJudged_relabel (hρ : Function.Injective ρ.var)
    (js : List (Scope × Declaration)) :
    problemsOfJudged (js.map (relabelJudged ρ)) = (problemsOfJudged js).map (·.relabel ρ) := by
  refine flatMap_relabel fun ⟨s, d⟩ _ => ?_
  change declarationProblems (s.relabel ρ) (d.relabel ρ) =
    (declarationProblems s d).map (·.relabel ρ)
  rw [declarationProblems, declarationProblems, roleProblem?_relabel, Declaration.role_relabel,
    boundProblems_relabel hρ, List.map_append, Option.toList_map]
  split <;> rfl

/-- Behind the init clause of a relabelled loop. -/
theorem aroundLoop_relabel (hρ : Function.Injective ρ.var) (init : Option ForInit) (s : Scope) :
    aroundLoop (init.map (·.relabel ρ)) (s.relabel ρ) = (aroundLoop init s).relabel ρ := by
  match init with
  | some (.decl d) => exact Scope.declare_relabel hρ s d.declarators
  | none | some (.expr _) => rfl

mutual

/-- **The scope behind a relabelled statement** is the scope behind the statement,
relabelled. -/
theorem after_relabel (hρ : Function.Injective ρ.var) : ∀ (st : Stmt) (s : Scope),
    after (st.relabel ρ) (s.relabel ρ) = (after st s).relabel ρ
  | .decl d _, s => Scope.declare_relabel hρ s d.declarators
  | .expr e _, s => Scope.assigned_relabel hρ e s
  | .block stmts _ _, s => by
      rw [Stmt.relabel, after, after, afterList_relabel hρ stmts s, Scope.leave_relabel]
  | .ifThen _ a _, s | .switch _ a _, s => by
      rw [Stmt.relabel, after, after, after_relabel hρ a s, Scope.leave_relabel]
  | .ifElse _ a b _, s => by
      rw [Stmt.relabel, after, after, after_relabel hρ a s, Scope.leave_relabel,
        after_relabel hρ b, Scope.leave_relabel]
  | .whileLoop _ body span, s | .doWhile body _ span, s => by
      have hbody := after_relabel hρ body (s.enter .plain span)
      rw [Stmt.relabel, after, after, ← Scope.leave_relabel, ← hbody]
      rfl
  | .forLoop header body _, s => by
      have haround : aroundLoop (header.relabel ρ).init (s.relabel ρ) =
          (aroundLoop header.init s).relabel ρ := aroundLoop_relabel hρ header.init s
      rw [Stmt.relabel, after, after, haround, insideLoop_relabel, after_relabel hρ body,
        Scope.leave_relabel, Scope.leave_relabel]
  | .caseLabel .., _ | .breakJump .., _ | .continueJump .., _ | .returnJump .., _
  | .empty .., _ => rfl

theorem afterList_relabel (hρ : Function.Injective ρ.var) : ∀ (stmts : List Stmt) (s : Scope),
    afterList (Stmt.relabelList ρ stmts) (s.relabel ρ) = (afterList stmts s).relabel ρ
  | [], _ => rfl
  | st :: rest, s => by
      rw [Stmt.relabelList, afterList, afterList, after_relabel hρ st s, afterList_relabel hρ rest]

end

/-- The judged declaration of a relabelled init clause. -/
theorem judgedInit_relabel (init : Option ForInit) (s : Scope) :
    judgedInit (init.map (·.relabel ρ)) (s.relabel ρ) =
      (judgedInit init s).map (relabelJudged ρ) := by
  match init with
  | some (.decl _) | none | some (.expr _) => rfl

mutual

/-- **The declarations in a relabelled statement** are those in the statement,
relabelled with the scopes that they are judged in. -/
theorem judged_relabel (hρ : Function.Injective ρ.var) : ∀ (st : Stmt) (s : Scope),
    judged (st.relabel ρ) (s.relabel ρ) = (judged st s).map (relabelJudged ρ)
  | .decl _ _, _ => rfl
  | .block stmts _ _, s => judgedList_relabel hρ stmts s
  | .ifThen _ a _, s | .switch _ a _, s => judged_relabel hρ a s
  | .ifElse _ a b _, s => by
      rw [Stmt.relabel, judged, judged, judged_relabel hρ a s, after_relabel hρ a s,
        Scope.leave_relabel, judged_relabel hρ b, List.map_append]
  | .whileLoop _ body span, s | .doWhile body _ span, s =>
      judged_relabel hρ body (s.enter .plain span)
  | .forLoop header body _, s => by
      have haround : aroundLoop (header.relabel ρ).init (s.relabel ρ) =
          (aroundLoop header.init s).relabel ρ := aroundLoop_relabel hρ header.init s
      have hinit : judgedInit (header.relabel ρ).init (s.relabel ρ) =
          (judgedInit header.init s).map (relabelJudged ρ) := judgedInit_relabel header.init s
      rw [Stmt.relabel, judged, judged, haround, hinit, insideLoop_relabel,
        judged_relabel hρ body, List.map_append]
  | .expr .., _ | .caseLabel .., _ | .breakJump .., _ | .continueJump .., _ | .returnJump .., _
  | .empty .., _ => rfl

theorem judgedList_relabel (hρ : Function.Injective ρ.var) : ∀ (stmts : List Stmt) (s : Scope),
    judgedList (Stmt.relabelList ρ stmts) (s.relabel ρ) =
      (judgedList stmts s).map (relabelJudged ρ)
  | [], _ => rfl
  | st :: rest, s => by
      rw [Stmt.relabelList, judgedList, judgedList, judged_relabel hρ st s, after_relabel hρ st s,
        judgedList_relabel hρ rest, List.map_append]

end

end Storage

/-- **Storage.** -/
theorem Function.storageProblems_relabel (hρ : Function.Injective ρ.var) (kernel : Function) :
    (kernel.relabel ρ).storageProblems = kernel.storageProblems.map (·.relabel ρ) := by
  have hstart : Storage.atStart (kernel.relabel ρ) = (Storage.atStart kernel).relabel ρ := by
    have hparams : (kernel.relabel ρ).params.map (·.name) =
        (kernel.params.map (·.name)).map ρ.var := by
      simp only [relabel, List.map_map]
      rfl
    rw [Storage.atStart, Storage.atStart, hparams, ← Scope.bindAll_relabel]
    rfl
  have hjudged : (kernel.relabel ρ).judged = kernel.judged.map (Storage.relabelJudged ρ) := by
    rw [judged, judged, hstart]
    exact Storage.judgedList_relabel hρ kernel.body.stmts (Storage.atStart kernel)
  rw [storageProblems, storageProblems, hjudged, Storage.problemsOfJudged_relabel hρ]

end KernelCheck
