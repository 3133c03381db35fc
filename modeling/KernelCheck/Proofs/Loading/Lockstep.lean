import KernelCheck.Document.Load
import KernelCheck.Proofs.Loading.Names
import KernelCheck.Proofs.Relabelling.Basic

/-!
# Loading with two tables

A module is loaded twice, with different tables.  The two loadings take the same
steps: either both fail, with the same error, or both yield the same tree in
which equal texts have the names that the two tables give them.

* `Loading.Lockstep` — two steps of loading that go alike whichever tables they
  start from.  Its rules follow the ways in which steps are put together.
* `Module.lockstep_parse` — a module as a whole.
-/

namespace KernelCheck

/-- Other names for all texts, and no other places. -/
def Relabelling.renumber (σ : Name → Name) : Relabelling := ⟨id, id, σ, σ, σ⟩

namespace Loading

variable {α β : Type}

/-- Two outcomes of loading.  What is loaded is related by every map that takes
the names of the one table to those of the other. -/
inductive Alike (R : (Name → Name) → α → α → Prop) (t t' : Interner) :
    Except LoadError (α × Interner) → Except LoadError (α × Interner) → Prop
  | failed (e : LoadError) : Alike R t t' (.error e) (.error e)
  | loaded {x x' : α} {u u' : Interner} (grown : t.Within u) (grown' : t'.Within u')
      (related : ∀ σ, u.Renames u' σ → R σ x x') : Alike R t t' (.ok (x, u)) (.ok (x', u'))

/-- Two steps of loading have such outcomes, whichever tables they start from. -/
def Lockstep (R : (Name → Name) → α → α → Prop) (m m' : Loading α) : Prop :=
  ∀ t t', Alike R t t' (m.run t) (m'.run t')

namespace Lockstep

variable {R : (Name → Name) → α → α → Prop} {S : (Name → Name) → β → β → Prop}

/-- Steps that do nothing go alike. -/
theorem pure {x x' : α} (h : ∀ σ, R σ x x') : Lockstep R (pure x) (pure x') :=
  fun t t' => .loaded (.refl t) (.refl t') fun σ _ => h σ

/-- Steps that fail with the same error go alike. -/
theorem throw (e : LoadError) : Lockstep R (throw e) (throw e) := fun _ _ => .failed e

/-- What the first steps yield is related in the end, since the tables in between
have no other names. -/
theorem bind {m m' : Loading α} {k k' : α → Loading β} (h : Lockstep R m m')
    (hk : ∀ x x', Lockstep (fun σ y y' => R σ x x' → S σ y y') (k x) (k' x')) :
    Lockstep S (m >>= k) (m' >>= k') := by
  intro t t'
  have hfirst := h t t'
  rw [StateT.run_bind, StateT.run_bind]
  generalize m.run t = r, m'.run t' = r' at hfirst
  cases hfirst with
  | failed e => exact .failed e
  | @loaded x x' u u' hu hu' hR =>
      have hrest := hk x x' u u'
      change Alike S t t' ((k x).run u) ((k' x').run u')
      generalize (k x).run u = q, (k' x').run u' = q' at hrest
      cases hrest with
      | failed e => exact .failed e
      | loaded hv hv' hS =>
          refine .loaded (hu.trans hv) (hu'.trans hv') fun σ hσ => hS σ hσ ?_
          -- a map between the last tables is one between those after the first step
          exact hR σ (hσ.of_within hv hv')

/-- The two names of one text correspond. -/
theorem intern (s : String) : Lockstep (fun σ n n' => n' = σ n) (intern s) (intern s) := by
  intro t t'
  refine .loaded (t.within_intern s) (t'.within_intern s) fun σ hσ => ?_
  exact (hσ s _ _ (t.get?_intern s) (t'.get?_intern s)).symm

/-- The same for a text that has to name something. -/
theorem name (role : NameRole) (s : String) (span : Span) :
    Lockstep (fun σ n n' => n' = σ n) (name role s span) (name role s span) := by
  unfold Loading.name
  split
  · exact throw _
  · exact intern s

/-- A span does not depend on the table. -/
theorem bindSpan {k k' : Span → Loading β} (o : Offsets) (hk : ∀ s, Lockstep S (k s) (k' s)) :
    Lockstep S (o.toSpan >>= k) (o.toSpan >>= k') := by
  unfold Offsets.toSpan
  split
  · exact hk _
  · exact fun _ _ => .failed _

/-- Steps for the items of a list, one after the other. -/
theorem mapM {δ : Type} {f : δ → Loading α} {g : (Name → Name) → α → α}
    (h : ∀ d, Lockstep (fun σ x x' => x' = g σ x) (f d) (f d)) (ds : List δ) :
    Lockstep (fun σ xs xs' => xs' = xs.map (g σ)) (ds.mapM f) (ds.mapM f) := by
  induction ds with
  | nil => exact pure fun σ => rfl
  | cons d rest ih =>
      rw [List.mapM_cons]
      refine (h d).bind fun x x' => ih.bind fun xs xs' => ?_
      refine pure fun σ hxs hx => ?_
      rw [hxs, hx]
      rfl

end Lockstep

end Loading

open Loading

/-- What is loaded with the one table, renumbered, is what is loaded with the other. -/
abbrev Loading.Renumbered {α : Type} (relabel : Relabelling → α → α) (m : Loading α) : Prop :=
  Lockstep (fun σ x x' => x' = relabel (.renumber σ) x) m m

/-! ## Markers and types -/

/-- A marker has the same kind, or the two names of one word. -/
theorem MarkerNode.lockstep_toMarker (m : MarkerNode) : Renumbered Marker.relabel m.toMarker := by
  have hkind : Lockstep (fun σ kind kind' => kind' = kind.relabel (.renumber σ))
      (modifyGet fun t => MarkerKind.ofText m.bareWord t : Loading MarkerKind)
      (modifyGet fun t => MarkerKind.ofText m.bareWord t) := by
    intro t t'
    change Alike _ t t' (.ok (MarkerKind.ofText m.bareWord t))
      (.ok (MarkerKind.ofText m.bareWord t'))
    unfold MarkerKind.ofText
    split
    case h_1 kind hbuiltin =>
      refine .loaded (.refl t) (.refl t') fun σ _ => ?_
      -- a built-in marker has no name
      unfold MarkerKind.builtin? at hbuiltin
      split at hbuiltin <;> cases hbuiltin <;> rfl
    case h_2 =>
      refine .loaded (t.within_intern _) (t'.within_intern _) fun σ hσ => ?_
      exact congrArg MarkerKind.custom
        (hσ _ _ _ (t.get?_intern _) (t'.get?_intern _)).symm
  refine .bindSpan _ fun span => ?_
  by_cases hempty : m.bareWord.isEmpty
  · simp only [hempty, if_true]
    exact .throw _
  · simp only [hempty, if_false, Bool.false_eq_true]
    refine hkind.bind fun kind kind' => .pure ?_
    rintro σ rfl
    rfl

/-- The type of a keyword has no name. -/
theorem BaseType.relabel_of_keyword? {s : String} {base : BaseType} (h : keyword? s = some base)
    (ρ : Relabelling) : base.relabel ρ = base := by
  unfold keyword? at h
  split at h <;> cases h <;> rfl

/-- A type is the same but for its name. -/
theorem TypeNode.lockstep_toCType (c : TypeNode) (span : Span) :
    Renumbered CType.relabel (c.toCType span) := by
  have hnamed : Renumbered BaseType.relabel
      (BaseType.named <$> Loading.name .type c.base span) := by
    rw [map_eq_pure_bind]
    refine (Lockstep.name .type c.base span).bind fun n n' => .pure ?_
    rintro σ rfl
    rfl
  unfold toCType
  split
  case h_1 base hkeyword =>
      refine .pure fun σ => ?_
      rw [CType.relabel, BaseType.relabel_of_keyword? hkeyword]
  case h_2 =>
      refine hnamed.bind fun base base' => .pure ?_
      rintro σ rfl
      rfl

/-! ## Expressions -/

mutual

/-- An expression is the same but for its names. -/
theorem ExprNode.lockstep_toExpr : ∀ e : ExprNode, Renumbered Expr.relabel e.toExpr
  | .ident name o => .bindSpan o fun span => by
      refine (Lockstep.name .identifier name span).bind fun n n' => .pure ?_
      rintro σ rfl
      rfl
  | .int _ o | .float _ o | .char _ o => .bindSpan o fun span => .pure fun σ => rfl
  | .string value o => .bindSpan o fun span => by
      refine (Lockstep.intern value).bind fun n n' => .pure ?_
      rintro σ rfl
      rfl
  | .unary _ a o => .bindSpan o fun span => by
      refine (lockstep_toExpr a).bind fun x x' => .pure ?_
      rintro σ rfl
      rfl
  | .binary _ a b o | .assign _ a b o | .index a b o => .bindSpan o fun span => by
      refine (lockstep_toExpr a).bind fun x x' => (lockstep_toExpr b).bind fun y y' => .pure ?_
      rintro σ rfl rfl
      rfl
  | .call f args o => .bindSpan o fun span => by
      refine (lockstep_toExpr f).bind fun x x' => (lockstep_toExprs args).bind fun y y' => .pure ?_
      rintro σ rfl rfl
      rfl
  | .member a field _ o => .bindSpan o fun span => by
      refine (lockstep_toExpr a).bind fun x x' =>
        (Lockstep.name .field field span).bind fun n n' => .pure ?_
      rintro σ rfl rfl
      rfl
  | .cast type a o => .bindSpan o fun span => by
      refine (type.lockstep_toCType span).bind fun x x' =>
        (lockstep_toExpr a).bind fun y y' => .pure ?_
      rintro σ rfl rfl
      rfl
  | .ternary c a b o => .bindSpan o fun span => by
      refine (lockstep_toExpr c).bind fun x x' => (lockstep_toExpr a).bind fun y y' =>
        (lockstep_toExpr b).bind fun z z' => .pure ?_
      rintro σ rfl rfl rfl
      rfl
  | .comma parts o => .bindSpan o fun span => by
      refine (lockstep_toExprs parts).bind fun x x' => .pure ?_
      rintro σ rfl
      rfl
  | .sizeOfType type o => .bindSpan o fun span => by
      refine (type.lockstep_toCType span).bind fun x x' => .pure ?_
      rintro σ rfl
      rfl

/-- So are several expressions. -/
theorem ExprNode.lockstep_toExprs : ∀ es : List ExprNode,
    Renumbered Expr.relabelList (ExprNode.toExprs es)
  | [] => .pure fun σ => rfl
  | e :: rest => by
      refine (lockstep_toExpr e).bind fun x x' => (lockstep_toExprs rest).bind fun y y' => .pure ?_
      rintro σ rfl rfl
      rfl

end

/-- So is an expression that may be missing. -/
theorem ExprNode.lockstep_toExprOption (e : Option ExprNode) :
    Renumbered (fun ρ x => x.map (·.relabel ρ)) (ExprNode.toExprOption e) := by
  cases e with
  | none => exact .pure fun σ => rfl
  | some e =>
      refine (lockstep_toExpr e).bind fun x x' => .pure ?_
      rintro σ rfl
      rfl

/-! ## Declarations and statements -/

/-- A declarator is the same but for its names. -/
theorem DeclaratorNode.lockstep_toDeclarator (d : DeclaratorNode) :
    Renumbered Declarator.relabel d.toDeclarator := by
  refine .bindSpan _ fun span => (Lockstep.name .declarator d.name span).bind fun n n' =>
    (ExprNode.lockstep_toExprs d.dims).bind fun x x' =>
    (ExprNode.lockstep_toExprOption d.init).bind fun y y' => .pure ?_
  rintro σ rfl rfl rfl
  rfl

/-- A declaration is the same but for its names. -/
theorem DeclarationNode.lockstep_toDeclaration (d : DeclarationNode) (span : Span) :
    Renumbered Declaration.relabel (d.toDeclaration span) := by
  refine (Lockstep.mapM DeclaratorNode.lockstep_toDeclarator d.declarators).bind fun x x' =>
    (d.type.lockstep_toCType span).bind fun y y' =>
    (Lockstep.mapM MarkerNode.lockstep_toMarker d.markers).bind fun z z' => .pure ?_
  rintro σ rfl rfl rfl
  rfl

/-- An init clause is the same but for its names. -/
theorem InitNode.lockstep_toInit : ∀ init : InitNode, Renumbered ForInit.relabel init.toInit
  | .decl d => .bindSpan d.offsets fun span => by
      refine (d.lockstep_toDeclaration span).bind fun x x' => .pure ?_
      rintro σ rfl
      rfl
  | .expr e => by
      refine e.lockstep_toExpr.bind fun x x' => .pure ?_
      rintro σ rfl
      rfl

/-- So is an init clause that may be missing. -/
theorem InitNode.lockstep_toInitOption (init : Option InitNode) :
    Renumbered (fun ρ x => x.map (·.relabel ρ)) (InitNode.toInitOption init) := by
  cases init with
  | none => exact .pure fun σ => rfl
  | some init =>
      refine init.lockstep_toInit.bind fun x x' => .pure ?_
      rintro σ rfl
      rfl

mutual

/-- A statement is the same but for its names. -/
theorem StmtNode.lockstep_toStmt : ∀ s : StmtNode, Renumbered Stmt.relabel s.toStmt
  | .expr e o => .bindSpan o fun span => by
      refine e.lockstep_toExpr.bind fun x x' => .pure ?_
      rintro σ rfl
      rfl
  | .decl d o => .bindSpan o fun span => by
      refine (d.lockstep_toDeclaration span).bind fun x x' => .pure ?_
      rintro σ rfl
      rfl
  | .block stmts o => .bindSpan o fun span => by
      refine (lockstep_toStmts stmts).bind fun x x' => .pure ?_
      rintro σ rfl
      rfl
  | .ifThen c a o | .whileLoop c a o | .switch c a o => .bindSpan o fun span => by
      refine c.lockstep_toExpr.bind fun x x' => (lockstep_toStmt a).bind fun y y' => .pure ?_
      rintro σ rfl rfl
      rfl
  | .doWhile a c o => .bindSpan o fun span => by
      refine (lockstep_toStmt a).bind fun x x' => c.lockstep_toExpr.bind fun y y' => .pure ?_
      rintro σ rfl rfl
      rfl
  | .ifElse c a b o => .bindSpan o fun span => by
      refine c.lockstep_toExpr.bind fun x x' => (lockstep_toStmt a).bind fun y y' =>
        (lockstep_toStmt b).bind fun z z' => .pure ?_
      rintro σ rfl rfl rfl
      rfl
  | .forLoop init test update body markers o => .bindSpan o fun span => by
      refine (InitNode.lockstep_toInitOption init).bind fun i i' =>
        (ExprNode.lockstep_toExprOption test).bind fun x x' =>
        (ExprNode.lockstep_toExprOption update).bind fun y y' =>
        (lockstep_toStmt body).bind fun b b' =>
        (Lockstep.mapM MarkerNode.lockstep_toMarker markers).bind fun m m' => .pure ?_
      rintro σ rfl rfl rfl rfl rfl
      rfl
  | .caseLabel value o | .returnJump value o => .bindSpan o fun span => by
      refine (ExprNode.lockstep_toExprOption value).bind fun x x' => .pure ?_
      rintro σ rfl
      rfl
  | .breakJump o | .continueJump o | .empty o => .bindSpan o fun span => .pure fun σ => rfl

/-- So are several statements. -/
theorem StmtNode.lockstep_toStmts : ∀ stmts : List StmtNode,
    Renumbered Stmt.relabelList (StmtNode.toStmts stmts)
  | [] => .pure fun σ => rfl
  | s :: rest => by
      refine (lockstep_toStmt s).bind fun x x' => (lockstep_toStmts rest).bind fun y y' => .pure ?_
      rintro σ rfl rfl
      rfl

end

/-! ## Functions and modules -/

/-- A block is the same but for its names. -/
theorem BlockNode.lockstep_toBlock (b : BlockNode) : Renumbered Block.relabel b.toBlock := by
  refine (StmtNode.lockstep_toStmts b.stmts).bind fun x x' => .bindSpan _ fun span => .pure ?_
  rintro σ rfl
  rfl

/-- A parameter is the same but for its names. -/
theorem ParamNode.lockstep_toParam (p : ParamNode) : Renumbered Param.relabel p.toParam := by
  refine .bindSpan _ fun span => (Lockstep.name .parameter p.name span).bind fun n n' =>
    (p.type.lockstep_toCType span).bind fun x x' => .pure ?_
  rintro σ rfl rfl
  rfl

/-- A return type, given or not, is the same but for its name. -/
theorem TypeNode.lockstep_returnType (returns : Option TypeNode) (span : Span) :
    Renumbered CType.relabel (TypeNode.returnType returns span) := by
  cases returns with
  | none => exact .pure fun σ => rfl
  | some type => exact type.lockstep_toCType span

/-- A function is the same but for its names. -/
theorem FunctionNode.lockstep_toFunction (f : FunctionNode) :
    Renumbered Function.relabel f.toFunction := by
  refine .bindSpan _ fun span =>
    (Lockstep.mapM ParamNode.lockstep_toParam f.params).bind fun x x' =>
    (TypeNode.lockstep_returnType f.returns span).bind fun y y' =>
    (Lockstep.name .function f.name span).bind fun n n' =>
    f.body.lockstep_toBlock.bind fun b b' =>
    (Lockstep.mapM MarkerNode.lockstep_toMarker f.markers).bind fun m m' => .pure ?_
  rintro σ rfl rfl rfl rfl rfl
  rfl

/-- **A document** is loaded as the same module but for the names. -/
theorem Document.lockstep_toModule (d : Document) : Renumbered Module.relabel d.toModule := by
  refine (Lockstep.mapM FunctionNode.lockstep_toFunction d.functions).bind fun x x' => .pure ?_
  rintro σ rfl
  rfl

/-- **Loading a text with two tables** goes alike: it fails in both cases with the
same error, or yields modules that differ in the numbers of their names only. -/
theorem Module.lockstep_parse (text origin : String) :
    Renumbered Module.relabel (Module.parse text origin) := by
  unfold Module.parse
  cases Document.parse text origin with
  | error e => exact fun t t' => .failed e
  | ok document => exact fun t t' => document.lockstep_toModule t t'

end KernelCheck
