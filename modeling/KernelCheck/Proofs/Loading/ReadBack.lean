import KernelCheck.Proofs.Loading.Ensures
import KernelCheck.Proofs.Loading.Lockstep
import KernelCheck.Proofs.Loading.NormalForm

/-!
# Reading a module back

Nothing of a document is lost when it becomes a module, but for what its normal form
leaves out.

* `Module.toDocument` reads a module back, with the text of each name in the place of
  the name and with the offsets of each span.

1. What is loaded from a node reads back as the normal form of the node, in every table
   with the names known then (`Document.readBack_toModule`, and so on for the parts of a
   document).
2. A module whose names are renumbered reads back as before, if they have the same texts
   in the other table (`Module.toDocument_renumber`).

`toModule_lossless` concludes that two documents lead to the same module exactly if they
have the same normal form.
-/

namespace KernelCheck

/-! ## Modules as documents -/

/-- The offsets at which a span starts and stops. -/
def Span.offsets (s : Span) : Offsets := ⟨s.start, s.stop⟩

def CType.toNode (t : Interner) (c : CType) : TypeNode :=
  ⟨c.base.text t, c.isUnsigned, c.isConst, c.pointerDepth⟩

def Marker.toNode (t : Interner) (m : Marker) : MarkerNode := ⟨m.kind.text t, m.span.offsets⟩

def Param.toNode (t : Interner) (p : Param) : ParamNode :=
  ⟨t.lookup p.name, p.type.toNode t, p.span.offsets⟩

mutual

def Expr.toNode (t : Interner) : Expr → ExprNode
  | .ident n s => .ident (t.lookup n) s.offsets
  | .int value s => .int value s.offsets
  | .float bits s => .float bits s.offsets
  | .char value s => .char value s.offsets
  | .string text s => .string (t.lookup text) s.offsets
  | .unary op a s => .unary op (a.toNode t) s.offsets
  | .binary op a b s => .binary op (a.toNode t) (b.toNode t) s.offsets
  | .assign op a b s => .assign op (a.toNode t) (b.toNode t) s.offsets
  | .call f args s => .call (f.toNode t) (Expr.toNodes t args) s.offsets
  | .index a b s => .index (a.toNode t) (b.toNode t) s.offsets
  | .member a field arrow s => .member (a.toNode t) (t.lookup field) arrow s.offsets
  | .cast type a s => .cast (type.toNode t) (a.toNode t) s.offsets
  | .ternary c a b s => .ternary (c.toNode t) (a.toNode t) (b.toNode t) s.offsets
  | .comma parts s => .comma (Expr.toNodes t parts) s.offsets
  | .sizeOfType type s => .sizeOfType (type.toNode t) s.offsets

def Expr.toNodes (t : Interner) : List Expr → List ExprNode
  | [] => []
  | e :: rest => e.toNode t :: Expr.toNodes t rest

end

def Declarator.toNode (t : Interner) (d : Declarator) : DeclaratorNode :=
  ⟨t.lookup d.name, Expr.toNodes t d.dims, d.init.map (·.toNode t), d.span.offsets⟩

def Declaration.toNode (t : Interner) (d : Declaration) : DeclarationNode :=
  ⟨d.type.toNode t, d.declarators.map (·.toNode t), d.markers.map (·.toNode t), d.span.offsets⟩

def ForInit.toNode (t : Interner) : ForInit → InitNode
  | .decl d => .decl (d.toNode t)
  | .expr e => .expr (e.toNode t)

mutual

/-- The place of a statement around a block or a loop is that of what it holds, and is
written once. -/
def Stmt.toNode (t : Interner) : Stmt → StmtNode
  | .expr e s => .expr (e.toNode t) s.offsets
  | .decl d s => .decl (d.toNode t) s.offsets
  | .block stmts _ s => .block (Stmt.toNodes t stmts) s.offsets
  | .ifThen c a s => .ifThen (c.toNode t) (a.toNode t) s.offsets
  | .ifElse c a b s => .ifElse (c.toNode t) (a.toNode t) (b.toNode t) s.offsets
  | .forLoop header body s =>
    .forLoop (header.init.map (·.toNode t)) (header.test.map (·.toNode t))
      (header.update.map (·.toNode t)) (body.toNode t) (header.markers.map (·.toNode t)) s.offsets
  | .whileLoop c body s => .whileLoop (c.toNode t) (body.toNode t) s.offsets
  | .doWhile body c s => .doWhile (body.toNode t) (c.toNode t) s.offsets
  | .switch c body s => .switch (c.toNode t) (body.toNode t) s.offsets
  | .caseLabel value s => .caseLabel (value.map (·.toNode t)) s.offsets
  | .breakJump s => .breakJump s.offsets
  | .continueJump s => .continueJump s.offsets
  | .returnJump value s => .returnJump (value.map (·.toNode t)) s.offsets
  | .empty s => .empty s.offsets

def Stmt.toNodes (t : Interner) : List Stmt → List StmtNode
  | [] => []
  | s :: rest => s.toNode t :: Stmt.toNodes t rest

end

def Block.toNode (t : Interner) (b : Block) : BlockNode :=
  ⟨Stmt.toNodes t b.stmts, b.span.offsets⟩

/-- The return type is always written out. -/
def Function.toNode (t : Interner) (f : Function) : FunctionNode :=
  ⟨t.lookup f.name, f.markers.map (·.toNode t), f.params.map (·.toNode t),
    some (f.returns.toNode t), f.body.toNode t, f.span.offsets⟩

/-- The document that a module reads as. -/
def Module.toDocument (t : Interner) (m : Module) : Document := ⟨m.functions.map (·.toNode t)⟩

/-! ## Reading back what was loaded -/

/-- What is loaded reads back as this, in every table with the names known then. -/
abbrev Loading.ReadsAs {α γ : Type} (back : Interner → α → γ) (node : γ) (m : Loading α) : Prop :=
  Loading.Ensures (fun w x => back w x = node) m

open Loading

/-- A span has the offsets that gave it. -/
theorem Offsets.Give.offsets_eq {o : Offsets} {s : Span} (h : o.Give s) : s.offsets = o := by
  obtain ⟨-, -, rfl⟩ := Span.ofOffsets_eq_ok_iff.mp h
  rfl

/-- A marker that is built in has the word that gave it. -/
theorem MarkerKind.text_of_builtin? {s : String} {kind : MarkerKind} (h : builtin? s = some kind)
    (t : Interner) : kind.text t = s := by
  unfold builtin? at h
  split at h <;> cases h <;> rfl

/-- A marker is read back in normal form. -/
theorem MarkerNode.readBack_toMarker (m : MarkerNode) :
    ReadsAs Marker.toNode m.normal m.toMarker := by
  refine m.ensures_toMarker.mono fun w marker h => ?_
  obtain ⟨hspan, -, hkind⟩ := h
  have htext : marker.kind.text w = m.bareWord := by
    rcases hkind with hbuiltin | ⟨n, hcustom, hn⟩
    · exact MarkerKind.text_of_builtin? hbuiltin w
    · rw [hcustom]
      exact Interner.lookup_of_get? hn
  rw [Marker.toNode, htext, hspan.offsets_eq, normal]

/-- A keyword is read back, but for the second one for truth values. -/
theorem BaseType.text_of_keyword? {s : String} {base : BaseType} (h : keyword? s = some base)
    (t : Interner) : base.text t = if s = "_Bool" then "bool" else s := by
  unfold keyword? at h
  split at h <;> cases h <;> rfl

/-- A type is read back in normal form. -/
theorem TypeNode.readBack_toCType (c : TypeNode) (span : Span) :
    ReadsAs CType.toNode c.normal (c.toCType span) := by
  refine (c.ensures_toCType span).mono fun w type h => ?_
  obtain ⟨htype, hbase⟩ := h
  have htext : type.base.text w = if c.base = "_Bool" then "bool" else c.base := by
    rcases hbase with hkeyword | ⟨hnone, n, hnamed, -, hn⟩
    · exact BaseType.text_of_keyword? hkeyword w
    · have hspelling : c.base ≠ "_Bool" := by
        intro h
        rw [h] at hnone
        cases hnone
      rw [hnamed, if_neg hspelling]
      exact Interner.lookup_of_get? hn
  rw [htype, CType.toNode, htext, normal]

/-- A return type is read back, and a missing one as that of nothing. -/
theorem TypeNode.readBack_returnType (returns : Option TypeNode) (span : Span) :
    ReadsAs CType.toNode (returns.getD .plainVoid).normal (TypeNode.returnType returns span) := by
  cases returns with
  | none => exact .pure fun w => rfl
  | some type => exact type.readBack_toCType span

mutual

/-- An expression is read back in normal form. -/
theorem ExprNode.readBack_toExpr : ∀ e : ExprNode, ReadsAs Expr.toNode e.normal e.toExpr
  | .ident name o => .bindSpan o fun span hspan => by
      refine (Ensures.name .identifier name span).bind fun n => .pure fun w hn => ?_
      rw [Expr.toNode, Interner.lookup_of_get? hn.2, hspan.offsets_eq, normal]
  | .int _ o | .float _ o | .char _ o => .bindSpan o fun span hspan => .pure fun w => by
      rw [Expr.toNode, hspan.offsets_eq, normal]
  | .string value o => .bindSpan o fun span hspan => by
      refine (Ensures.intern value).bind fun n => .pure fun w hn => ?_
      rw [Expr.toNode, Interner.lookup_of_get? hn, hspan.offsets_eq, normal]
  | .unary _ a o => .bindSpan o fun span hspan => by
      refine (readBack_toExpr a).bind fun x => .pure fun w hx => ?_
      rw [Expr.toNode, hx, hspan.offsets_eq, normal]
  | .binary _ a b o | .assign _ a b o | .index a b o => .bindSpan o fun span hspan => by
      refine (readBack_toExpr a).bind fun x => (readBack_toExpr b).bind fun y =>
        .pure fun w hy hx => ?_
      rw [Expr.toNode, hx, hy, hspan.offsets_eq, normal]
  | .call f args o => .bindSpan o fun span hspan => by
      refine (readBack_toExpr f).bind fun x => (readBack_toExprs args).bind fun y =>
        .pure fun w hy hx => ?_
      rw [Expr.toNode, hx, hy, hspan.offsets_eq, normal]
  | .member a field _ o => .bindSpan o fun span hspan => by
      refine (readBack_toExpr a).bind fun x => (Ensures.name .field field span).bind fun n =>
        .pure fun w hn hx => ?_
      rw [Expr.toNode, hx, Interner.lookup_of_get? hn.2, hspan.offsets_eq, normal]
  | .cast type a o => .bindSpan o fun span hspan => by
      refine (type.readBack_toCType span).bind fun x => (readBack_toExpr a).bind fun y =>
        .pure fun w hy hx => ?_
      rw [Expr.toNode, hx, hy, hspan.offsets_eq, normal]
  | .ternary c a b o => .bindSpan o fun span hspan => by
      refine (readBack_toExpr c).bind fun x => (readBack_toExpr a).bind fun y =>
        (readBack_toExpr b).bind fun z => .pure fun w hz hy hx => ?_
      rw [Expr.toNode, hx, hy, hz, hspan.offsets_eq, normal]
  | .comma parts o => .bindSpan o fun span hspan => by
      refine (readBack_toExprs parts).bind fun x => .pure fun w hx => ?_
      rw [Expr.toNode, hx, hspan.offsets_eq, normal]
  | .sizeOfType type o => .bindSpan o fun span hspan => by
      refine (type.readBack_toCType span).bind fun x => .pure fun w hx => ?_
      rw [Expr.toNode, hx, hspan.offsets_eq, normal]

/-- So are several expressions. -/
theorem ExprNode.readBack_toExprs : ∀ es : List ExprNode,
    ReadsAs Expr.toNodes (ExprNode.normals es) (ExprNode.toExprs es)
  | [] => .pure fun w => rfl
  | e :: rest => by
      refine (readBack_toExpr e).bind fun x => (readBack_toExprs rest).bind fun y =>
        .pure fun w hy hx => ?_
      rw [Expr.toNodes, hx, hy, normals]

end

/-- So is an expression that may be missing. -/
theorem ExprNode.readBack_toExprOption (e : Option ExprNode) :
    Ensures (fun w x => x.map (·.toNode w) = e.map (·.normal)) (ExprNode.toExprOption e) := by
  cases e with
  | none => exact .pure fun w => rfl
  | some e =>
      refine e.readBack_toExpr.bind fun x => .pure fun w hx => ?_
      rw [Option.map_some, hx, Option.map_some]

/-- A declarator is read back in normal form. -/
theorem DeclaratorNode.readBack_toDeclarator (d : DeclaratorNode) :
    ReadsAs Declarator.toNode d.normal d.toDeclarator := by
  refine .bindSpan _ fun span hspan => (Ensures.name .declarator d.name span).bind fun n =>
    (ExprNode.readBack_toExprs d.dims).bind fun x =>
    (ExprNode.readBack_toExprOption d.init).bind fun y => .pure fun w hy hx hn => ?_
  rw [Declarator.toNode, hx, hy, Interner.lookup_of_get? hn.2, hspan.offsets_eq, normal]

/-- A declaration is read back with the offsets of its holder. -/
theorem DeclarationNode.readBack_toDeclaration (d : DeclarationNode) {o : Offsets} {span : Span}
    (hspan : o.Give span) :
    ReadsAs Declaration.toNode (d.normalAt o) (d.toDeclaration span) := by
  refine (Ensures.mapM_map DeclaratorNode.readBack_toDeclarator d.declarators).bind fun x =>
    (d.type.readBack_toCType span).bind fun y =>
    (Ensures.mapM_map MarkerNode.readBack_toMarker d.markers).bind fun z =>
    .pure fun w hz hy hx => ?_
  rw [Declaration.toNode, hx, hy, hz, hspan.offsets_eq, normalAt]

/-- An init clause is read back in normal form. -/
theorem InitNode.readBack_toInit : ∀ init : InitNode,
    ReadsAs ForInit.toNode init.normal init.toInit
  | .decl d => .bindSpan d.offsets fun span hspan => by
      refine (d.readBack_toDeclaration hspan).bind fun x => .pure fun w hx => ?_
      rw [ForInit.toNode, hx, normal]
  | .expr e => by
      refine e.readBack_toExpr.bind fun x => .pure fun w hx => ?_
      rw [ForInit.toNode, hx, normal]

/-- So is an init clause that may be missing. -/
theorem InitNode.readBack_toInitOption (init : Option InitNode) :
    Ensures (fun w x => x.map (·.toNode w) = init.map (·.normal))
      (InitNode.toInitOption init) := by
  cases init with
  | none => exact .pure fun w => rfl
  | some init =>
      refine init.readBack_toInit.bind fun x => .pure fun w hx => ?_
      rw [Option.map_some, hx, Option.map_some]

mutual

/-- A statement is read back in normal form. -/
theorem StmtNode.readBack_toStmt : ∀ s : StmtNode, ReadsAs Stmt.toNode s.normal s.toStmt
  | .expr e o => .bindSpan o fun span hspan => by
      refine e.readBack_toExpr.bind fun x => .pure fun w hx => ?_
      rw [Stmt.toNode, hx, hspan.offsets_eq, normal]
  | .decl d o => .bindSpan o fun span hspan => by
      refine (d.readBack_toDeclaration hspan).bind fun x => .pure fun w hx => ?_
      rw [Stmt.toNode, hx, hspan.offsets_eq, normal]
  | .block stmts o => .bindSpan o fun span hspan => by
      refine (readBack_toStmts stmts).bind fun x => .pure fun w hx => ?_
      rw [Stmt.toNode, hx, hspan.offsets_eq, normal]
  | .ifThen c a o | .whileLoop c a o | .switch c a o => .bindSpan o fun span hspan => by
      refine c.readBack_toExpr.bind fun x => (readBack_toStmt a).bind fun y =>
        .pure fun w hy hx => ?_
      rw [Stmt.toNode, hx, hy, hspan.offsets_eq, normal]
  | .doWhile a c o => .bindSpan o fun span hspan => by
      refine (readBack_toStmt a).bind fun x => c.readBack_toExpr.bind fun y =>
        .pure fun w hy hx => ?_
      rw [Stmt.toNode, hx, hy, hspan.offsets_eq, normal]
  | .ifElse c a b o => .bindSpan o fun span hspan => by
      refine c.readBack_toExpr.bind fun x => (readBack_toStmt a).bind fun y =>
        (readBack_toStmt b).bind fun z => .pure fun w hz hy hx => ?_
      rw [Stmt.toNode, hx, hy, hz, hspan.offsets_eq, normal]
  | .forLoop init test update body markers o => .bindSpan o fun span hspan => by
      refine (InitNode.readBack_toInitOption init).bind fun i =>
        (ExprNode.readBack_toExprOption test).bind fun x =>
        (ExprNode.readBack_toExprOption update).bind fun y =>
        (readBack_toStmt body).bind fun b =>
        (Ensures.mapM_map MarkerNode.readBack_toMarker markers).bind fun m =>
        .pure fun w hm hb hy hx hi => ?_
      rw [Stmt.toNode, hi, hx, hy, hb, hm, hspan.offsets_eq, normal]
  | .caseLabel value o | .returnJump value o => .bindSpan o fun span hspan => by
      refine (ExprNode.readBack_toExprOption value).bind fun x => .pure fun w hx => ?_
      rw [Stmt.toNode, hx, hspan.offsets_eq, normal]
  | .breakJump o | .continueJump o | .empty o => .bindSpan o fun span hspan => .pure fun w => by
      rw [Stmt.toNode, hspan.offsets_eq, normal]

/-- So are several statements. -/
theorem StmtNode.readBack_toStmts : ∀ stmts : List StmtNode,
    ReadsAs Stmt.toNodes (StmtNode.normals stmts) (StmtNode.toStmts stmts)
  | [] => .pure fun w => rfl
  | s :: rest => by
      refine (readBack_toStmt s).bind fun x => (readBack_toStmts rest).bind fun y =>
        .pure fun w hy hx => ?_
      rw [Stmt.toNodes, hx, hy, normals]

end

/-- A block is read back in normal form. -/
theorem BlockNode.readBack_toBlock (b : BlockNode) : ReadsAs Block.toNode b.normal b.toBlock := by
  refine (StmtNode.readBack_toStmts b.stmts).bind fun x => .bindSpan _ fun span hspan =>
    .pure fun w hx => ?_
  rw [Block.toNode, hx, hspan.offsets_eq, normal]

/-- A parameter is read back in normal form. -/
theorem ParamNode.readBack_toParam (p : ParamNode) : ReadsAs Param.toNode p.normal p.toParam := by
  refine .bindSpan _ fun span hspan => (Ensures.name .parameter p.name span).bind fun n =>
    (p.type.readBack_toCType span).bind fun x => .pure fun w hx hn => ?_
  rw [Param.toNode, hx, Interner.lookup_of_get? hn.2, hspan.offsets_eq, normal]

/-- A function is read back in normal form. -/
theorem FunctionNode.readBack_toFunction (f : FunctionNode) :
    ReadsAs Function.toNode f.normal f.toFunction := by
  refine .bindSpan _ fun span hspan =>
    (Ensures.mapM_map ParamNode.readBack_toParam f.params).bind fun x =>
    (TypeNode.readBack_returnType f.returns span).bind fun y =>
    (Ensures.name .function f.name span).bind fun n =>
    f.body.readBack_toBlock.bind fun b =>
    (Ensures.mapM_map MarkerNode.readBack_toMarker f.markers).bind fun m =>
    .pure fun w hm hb hn hy hx => ?_
  rw [Function.toNode, hx, hy, hb, hm, Interner.lookup_of_get? hn.2, hspan.offsets_eq, normal]

/-- **A module reads back as the document** that it was loaded from, in normal form. -/
theorem Document.readBack_toModule (d : Document) :
    ReadsAs Module.toDocument d.normal d.toModule := by
  refine (Ensures.mapM_map FunctionNode.readBack_toFunction d.functions).bind fun x =>
    .pure fun w hx => ?_
  rw [Module.toDocument, hx, normal]

/-! ## Renumbered names -/

section Renumbered

variable {t u : Interner} {σ : Name → Name}

/-- A type is written by the text of its name. -/
theorem CType.toNode_renumber (h : ∀ n, u.lookup (σ n) = t.lookup n) (c : CType) :
    (c.relabel (.renumber σ)).toNode u = c.toNode t := by
  obtain ⟨base, isUnsigned, isConst, pointerDepth⟩ := c
  cases base with
  | named n => exact congrArg (TypeNode.mk · isUnsigned isConst pointerDepth) (h n)
  | _ => rfl

/-- A marker is written by its word. -/
theorem Marker.toNode_renumber (h : ∀ n, u.lookup (σ n) = t.lookup n) (m : Marker) :
    (m.relabel (.renumber σ)).toNode u = m.toNode t := by
  obtain ⟨kind, span⟩ := m
  cases kind with
  | custom n => exact congrArg (MarkerNode.mk · span.offsets) (h n)
  | _ => rfl

/-- A parameter is written by the texts of its names. -/
theorem Param.toNode_renumber (h : ∀ n, u.lookup (σ n) = t.lookup n) (p : Param) :
    (p.relabel (.renumber σ)).toNode u = p.toNode t := by
  rw [relabel, toNode, CType.toNode_renumber h]
  exact congrArg (ParamNode.mk · _ _) (h p.name)

mutual

/-- An expression is written by the texts of its names. -/
theorem Expr.toNode_renumber (h : ∀ n, u.lookup (σ n) = t.lookup n) :
    ∀ e : Expr, (e.relabel (.renumber σ)).toNode u = e.toNode t
  | .ident n s => congrArg (ExprNode.ident · s.offsets) (h n)
  | .string text s => congrArg (ExprNode.string · s.offsets) (h text)
  | .int .. | .float .. | .char .. => rfl
  | .unary _ a _ => by
      rw [relabel, toNode, toNode, toNode_renumber h a]
      rfl
  | .binary _ a b _ | .assign _ a b _ | .index a b _ => by
      rw [relabel, toNode, toNode, toNode_renumber h a, toNode_renumber h b]
      rfl
  | .call f args _ => by
      rw [relabel, toNode, toNode, toNode_renumber h f, toNodes_renumber h args]
      rfl
  | .member a field arrow s => by
      rw [relabel, toNode, toNode, toNode_renumber h a]
      exact congrArg (ExprNode.member _ · arrow s.offsets) (h field)
  | .cast type a _ => by
      rw [relabel, toNode, toNode, CType.toNode_renumber h, toNode_renumber h a]
      rfl
  | .ternary c a b _ => by
      rw [relabel, toNode, toNode, toNode_renumber h c, toNode_renumber h a, toNode_renumber h b]
      rfl
  | .comma parts _ => by
      rw [relabel, toNode, toNode, toNodes_renumber h parts]
      rfl
  | .sizeOfType type _ => by
      rw [relabel, toNode, toNode, CType.toNode_renumber h]
      rfl

/-- So are several expressions. -/
theorem Expr.toNodes_renumber (h : ∀ n, u.lookup (σ n) = t.lookup n) :
    ∀ es : List Expr, toNodes u (relabelList (.renumber σ) es) = toNodes t es
  | [] => rfl
  | e :: rest => by
      rw [relabelList, toNodes, toNodes, toNode_renumber h e, toNodes_renumber h rest]

end

/-- Parts of a node that are renumbered one by one. -/
theorem map_toNode_renumber {α γ : Type} {relabel : α → α} {back : Interner → α → γ}
    (h : ∀ x, back u (relabel x) = back t x) (xs : List α) :
    (xs.map relabel).map (back u) = xs.map (back t) := by
  rw [List.map_map]
  exact List.map_congr_left fun x _ => h x

/-- So is a part that may be missing. -/
theorem optionMap_toNode_renumber {α γ : Type} {relabel : α → α} {back : Interner → α → γ}
    (h : ∀ x, back u (relabel x) = back t x) (x : Option α) :
    (x.map relabel).map (back u) = x.map (back t) := by
  rw [Option.map_map]
  exact Option.map_congr fun x _ => h x

/-- A declarator is written by the texts of its names. -/
theorem Declarator.toNode_renumber (h : ∀ n, u.lookup (σ n) = t.lookup n) (d : Declarator) :
    (d.relabel (.renumber σ)).toNode u = d.toNode t := by
  rw [relabel, toNode, Expr.toNodes_renumber h,
    optionMap_toNode_renumber (Expr.toNode_renumber h)]
  exact congrArg (DeclaratorNode.mk · _ _ _) (h d.name)

/-- A declaration is written by the texts of its names. -/
theorem Declaration.toNode_renumber (h : ∀ n, u.lookup (σ n) = t.lookup n) (d : Declaration) :
    (d.relabel (.renumber σ)).toNode u = d.toNode t := by
  rw [relabel, toNode, CType.toNode_renumber h, map_toNode_renumber (Declarator.toNode_renumber h),
    map_toNode_renumber (Marker.toNode_renumber h)]
  rfl

/-- An init clause is written by the texts of its names. -/
theorem ForInit.toNode_renumber (h : ∀ n, u.lookup (σ n) = t.lookup n) (init : ForInit) :
    (init.relabel (.renumber σ)).toNode u = init.toNode t := by
  cases init with
  | decl d => exact congrArg InitNode.decl (d.toNode_renumber h)
  | expr e => exact congrArg InitNode.expr (e.toNode_renumber h)

mutual

/-- A statement is written by the texts of its names. -/
theorem Stmt.toNode_renumber (h : ∀ n, u.lookup (σ n) = t.lookup n) :
    ∀ s : Stmt, (s.relabel (.renumber σ)).toNode u = s.toNode t
  | .expr e _ => by
      rw [relabel, toNode, toNode, e.toNode_renumber h]
      rfl
  | .decl d _ => by
      rw [relabel, toNode, toNode, d.toNode_renumber h]
      rfl
  | .block stmts _ _ => by
      rw [relabel, toNode, toNode, toNodes_renumber h stmts]
      rfl
  | .ifThen c a _ | .whileLoop c a _ | .doWhile a c _ | .switch c a _ => by
      rw [relabel, toNode, toNode, c.toNode_renumber h, toNode_renumber h a]
      rfl
  | .ifElse c a b _ => by
      rw [relabel, toNode, toNode, c.toNode_renumber h, toNode_renumber h a, toNode_renumber h b]
      rfl
  | .forLoop header body _ => by
      rw [relabel, toNode, toNode, LoopHeader.relabel,
        optionMap_toNode_renumber (ForInit.toNode_renumber h),
        optionMap_toNode_renumber (Expr.toNode_renumber h),
        optionMap_toNode_renumber (Expr.toNode_renumber h),
        map_toNode_renumber (Marker.toNode_renumber h), toNode_renumber h body]
      rfl
  | .caseLabel value _ | .returnJump value _ => by
      rw [relabel, toNode, toNode, optionMap_toNode_renumber (Expr.toNode_renumber h)]
      rfl
  | .breakJump _ | .continueJump _ | .empty _ => rfl

/-- So are several statements. -/
theorem Stmt.toNodes_renumber (h : ∀ n, u.lookup (σ n) = t.lookup n) :
    ∀ stmts : List Stmt, toNodes u (relabelList (.renumber σ) stmts) = toNodes t stmts
  | [] => rfl
  | s :: rest => by
      rw [relabelList, toNodes, toNodes, toNode_renumber h s, toNodes_renumber h rest]

end

/-- A function is written by the texts of its names. -/
theorem Function.toNode_renumber (h : ∀ n, u.lookup (σ n) = t.lookup n) (f : Function) :
    (f.relabel (.renumber σ)).toNode u = f.toNode t := by
  rw [relabel, toNode, Block.relabel, Block.toNode, map_toNode_renumber (Marker.toNode_renumber h),
    map_toNode_renumber (Param.toNode_renumber h), CType.toNode_renumber h,
    Stmt.toNodes_renumber h]
  exact congrArg (FunctionNode.mk · _ _ _ _ _) (h f.name)

/-- A module whose names are renumbered reads back as before, if they have the same
texts in the other table. -/
theorem Module.toDocument_renumber (h : ∀ n, u.lookup (σ n) = t.lookup n) (m : Module) :
    (m.relabel (.renumber σ)).toDocument u = m.toDocument t := by
  rw [relabel, toDocument, map_toNode_renumber (Function.toNode_renumber h), toDocument]

end Renumbered

/-! ## Nothing is lost -/

/-- Two trees are the same but for the numbers of the names: names in the same place have
the same text in the two tables. -/
def Module.SameTexts (t : Interner) (m : Module) (t' : Interner) (m' : Module) : Prop :=
  ∀ σ, t.Renames t' σ → m' = m.relabel (.renumber σ)

/-- Some larger table knows all of the given texts. -/
theorem Interner.exists_within (t : Interner) (texts : List String) :
    ∃ v, t.Within v ∧ ∀ s ∈ texts, ∃ n, v.get? s = some n := by
  induction texts with
  | nil => exact ⟨t, .refl t, fun s hs => absurd hs List.not_mem_nil⟩
  | cons s rest ih =>
      obtain ⟨v, hv, hrest⟩ := ih
      refine ⟨(v.intern s).2, hv.trans (v.within_intern s), ?_⟩
      rw [List.forall_mem_cons]
      refine ⟨⟨_, v.get?_intern s⟩, fun r hr => ?_⟩
      obtain ⟨n, hn⟩ := hrest r hr
      exact ⟨n, v.within_intern s r n hn⟩

/-- What a name stands for is empty or a text of the table. -/
theorem Interner.lookup_mem (t : Interner) (n : Name) : t.lookup n ∈ "" :: t.texts := by
  unfold lookup
  cases h : t.texts[n.index]? with
  | none => exact List.mem_cons_self
  | some s => exact List.mem_cons_of_mem _ (List.mem_of_getElem? h)

/-- A table can grow until it has a name for every text that another one shows. -/
theorem Interner.exists_renames (t u : Interner) :
    ∃ v σ, u.Within v ∧ t.Renames v σ ∧ ∀ n, v.lookup (σ n) = t.lookup n := by
  obtain ⟨v, hv, htexts⟩ := u.exists_within ("" :: t.texts)
  refine ⟨v, translate t v, hv, renames_translate t v, fun n => ?_⟩
  obtain ⟨n', hn'⟩ := htexts _ (t.lookup_mem n)
  rw [translate, hn', Option.getD_some, lookup_of_get? hn']

/-- The same steps lead to the same tree, whatever the tables are. -/
theorem Document.sameTexts_of_run {d : Document} {t t' u u' : Interner} {m m' : Module}
    (h : d.toModule.run t = .ok (m, u)) (h' : d.toModule.run t' = .ok (m', u')) :
    Module.SameTexts u m u' m' := by
  have hlockstep := d.lockstep_toModule t t'
  rw [h, h'] at hlockstep
  cases hlockstep with
  | loaded _ _ hrenumbered => exact hrenumbered

/-- Operators that are found by their spellings are found by no others. -/
theorem find?_spelling_eq_some_iff {α : Type} {all : List α} {spelling : α → String}
    (h : ∀ op, all.find? (fun o => spelling o == spelling op) = some op) (s : String) (op : α) :
    all.find? (fun o => spelling o == s) = some op ↔ spelling op = s := by
  constructor
  · intro hfound
    have hspelling := List.find?_some hfound
    exact beq_iff_eq.mp hspelling
  · rintro rfl
    exact h op

/-- **Loading loses nothing.**  A module reads back, in every table with the names known
after loading, as the document that it was loaded from, in normal form.  So two documents
that can be loaded lead to the same tree exactly if they have the same normal form,
whichever tables they are loaded with.  The operators in a document are those with the
spellings in the text. -/
theorem toModule_lossless {d : Document} {t u : Interner} {m : Module}
    (h : d.toModule.run t = .ok (m, u)) :
    (∀ w, u.Within w → m.toDocument w = d.normal) ∧
    (∀ (d' : Document) (t' u' : Interner) (m' : Module), d'.toModule.run t' = .ok (m', u') →
      (m.SameTexts u u' m' ↔ d.normal = d'.normal)) ∧
    ∀ s, (∀ op, UnaryOp.ofSpelling? s = some op ↔ op.spelling = s) ∧
      (∀ op, BinaryOp.ofSpelling? s = some op ↔ op.spelling = s) ∧
      ∀ op, AssignOp.ofSpelling? s = some op ↔ op.spelling = s := by
  have hback : ∀ w, u.Within w → m.toDocument w = d.normal := (d.readBack_toModule t m u h).2
  refine ⟨hback, ?_, fun s => ⟨?_, ?_, ?_⟩⟩
  · intro d' t' u' m' h'
    constructor
    · intro hsame
      obtain ⟨v, σ, hv, hσ, htexts⟩ := u.exists_renames u'
      have hm' : m' = m.relabel (.renumber σ) := hsame σ (hσ.of_within (.refl u) hv)
      calc d.normal
          = m.toDocument u := (hback u (.refl u)).symm
        _ = (m.relabel (.renumber σ)).toDocument v := (m.toDocument_renumber htexts).symm
        _ = m'.toDocument v := by rw [hm']
        _ = d'.normal := (d'.readBack_toModule t' m' u' h').2 v hv
    · intro hnormal
      rw [← Document.toModule_congr hnormal] at h'
      exact Document.sameTexts_of_run h h'
  · exact find?_spelling_eq_some_iff UnaryOp.ofSpelling?_spelling s
  · exact find?_spelling_eq_some_iff BinaryOp.ofSpelling?_spelling s
  · exact find?_spelling_eq_some_iff AssignOp.ofSpelling?_spelling s

/-- A kernel that is marked `@kernel @tile`, with a parameter of type `bool`, without a
return type, and with a declaration whose own offsets are no span.  The three words can be
spelled in two ways. -/
def Document.flagSample (kernel tile bool : String) (returns : Option TypeNode)
    (own : Offsets) : Document :=
  let declaration : DeclarationNode :=
    ⟨⟨"size_t", false, false, 0⟩, [⟨"n", [], some (.string "" ⟨45, 47⟩), ⟨41, 47⟩⟩], [], own⟩
  ⟨[⟨"k", [⟨kernel, ⟨0, 7⟩⟩, ⟨tile, ⟨8, 13⟩⟩], [⟨"flag", ⟨bool, false, true, 0⟩, ⟨16, 32⟩⟩],
    returns, ⟨[.decl declaration ⟨34, 48⟩], ⟨33, 49⟩⟩, ⟨0, 49⟩⟩]⟩

/-- The other spellings lead to the same tree, also if the table holds `tile` before. -/
theorem toModule_lossless_flagSample :
    let d := Document.flagSample "@kernel" "@tile" "_Bool" none ⟨9, 3⟩
    let d' := Document.flagSample "kernel" "tile" "bool" (some .plainVoid) ⟨34, 48⟩
    ∃ m u m' u', d.toModule.run .initial = .ok (m, u) ∧
      d'.toModule.run (Interner.initial.intern "tile").2 = .ok (m', u') ∧
      m.toDocument u = d' ∧ m.SameTexts u u' m' := by
  intro d d'
  have hd : ∃ m u, d.toModule.run .initial = .ok (m, u) := ⟨_, _, rfl⟩
  have hd' : ∃ m' u', d'.toModule.run (Interner.initial.intern "tile").2 = .ok (m', u') :=
    ⟨_, _, rfl⟩
  obtain ⟨m, u, h⟩ := hd
  obtain ⟨m', u', h'⟩ := hd'
  obtain ⟨hback, hsame, -⟩ := toModule_lossless h
  have hnormal : d.normal = d' := rfl
  have hnormal' : d'.normal = d' := rfl
  refine ⟨m, u, m', u', h, h', (hback u (.refl u)).trans hnormal, ?_⟩
  exact (hsame d' _ u' m' h').mpr (hnormal.trans hnormal'.symm)

end KernelCheck
