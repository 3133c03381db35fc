import KernelCheck.Document.Load
import KernelCheck.Proofs.Loading.Ensures
import KernelCheck.Proofs.Relabelling.Details

/-!
# Sound details

Loading looks at every pair of offsets and at every word, so that nobody has to look
again.

* `Detail.Sound` — the offsets of a span are in order and below the limit, and a name is in
  the table and, unless it is a string literal, no empty text.
* `Module.sound_parse` — the details of what loads are sound, in every table with the names
  known then.  The theorems before it say the same of the parts of a module.
-/

namespace KernelCheck

open Loading

/-! ## Sound details -/

/-- The offsets are in order and below the limit. -/
def Span.IsProper (s : Span) : Prop := s.start ≤ s.stop ∧ s.stop < Span.limit

/-- The span is proper, or the name says something in the table. -/
def Detail.Sound (t : Interner) : Detail → Prop
  | .place s | .wrapper s => s.IsProper
  | .name _ n => n.index < t.size ∧ t.lookup n ≠ ""
  | .literal n => n.index < t.size

/-- All of these details are sound. -/
def AllSound (t : Interner) (ps : List Detail) : Prop := ∀ p ∈ ps, p.Sound t

namespace AllSound

variable {t : Interner} {p : Detail} {ps qs : List Detail}

/-- No details. -/
theorem nil : AllSound t [] := List.forall_mem_nil _

/-- A sound detail in front of others. -/
theorem cons (hp : p.Sound t) (h : AllSound t ps) : AllSound t (p :: ps) :=
  List.forall_mem_cons.mpr ⟨hp, h⟩

/-- The details of two parts. -/
theorem append (hp : AllSound t ps) (hq : AllSound t qs) : AllSound t (ps ++ qs) :=
  List.forall_mem_append.mpr ⟨hp, hq⟩

/-- The details of many parts. -/
theorem flatMap {α : Type} {xs : List α} {details : α → List Detail}
    (h : ∀ x ∈ xs, AllSound t (details x)) : AllSound t (xs.flatMap details) := by
  intro p hp
  obtain ⟨x, hx, hmem⟩ := List.mem_flatMap.mp hp
  exact h x hx p hmem

end AllSound

/-- Offsets give proper spans only. -/
theorem Offsets.Give.isProper {o : Offsets} {s : Span} (h : o.Give s) : s.IsProper := by
  obtain ⟨hle, hlt, rfl⟩ := Span.ofOffsets_eq_ok_iff.mp h
  exact ⟨hle, hlt⟩

/-- A name that says something and is in the table is sound. -/
theorem Detail.sound_name {t : Interner} {s : String} {n : Name} (h : s ≠ "" ∧ t.get? s = some n)
    (role : NameRole) : (Detail.name role n).Sound t := by
  refine ⟨Interner.index_lt_of_get? h.2, ?_⟩
  rw [Interner.lookup_of_get? h.2]
  exact h.1

/-! ## Sound loading -/

/-- The details of what is loaded are sound, in every table with the names known then. -/
abbrev Loading.Sound {α : Type} (details : α → List Detail) (m : Loading α) : Prop :=
  Loading.Ensures (fun w x => AllSound w (details x)) m

/-- The details of a loaded marker are sound. -/
theorem MarkerNode.sound_toMarker (m : MarkerNode) : Loading.Sound Marker.details m.toMarker := by
  refine m.ensures_toMarker.mono fun w marker h => ?_
  obtain ⟨kind, span⟩ := marker
  obtain ⟨hspan, hword, hkind⟩ := h
  rcases hkind with hbuiltin | ⟨n, rfl, hn⟩
  · unfold MarkerKind.builtin? at hbuiltin
    split at hbuiltin <;> cases hbuiltin <;> exact .cons hspan.isProper .nil
  · exact .cons hspan.isProper (.cons (Detail.sound_name ⟨hword, hn⟩ .marker) .nil)

/-- The details of a loaded type are sound. -/
theorem TypeNode.sound_toCType (c : TypeNode) (span : Span) :
    Loading.Sound CType.details (c.toCType span) := by
  refine (c.ensures_toCType span).mono fun w type h => ?_
  obtain ⟨base, isUnsigned, isConst, pointerDepth⟩ := type
  rcases h.2 with hkeyword | ⟨-, n, rfl, hn⟩
  · unfold BaseType.keyword? at hkeyword
    split at hkeyword <;> cases hkeyword <;> exact .nil
  · exact .cons (Detail.sound_name hn .type) .nil

/-- So are those of a return type, given or not. -/
theorem TypeNode.sound_returnType (returns : Option TypeNode) (span : Span) :
    Loading.Sound CType.details (TypeNode.returnType returns span) := by
  cases returns with
  | none => exact .pure fun w => .nil
  | some type => exact type.sound_toCType span

mutual

/-- The details of a loaded expression are sound. -/
theorem ExprNode.sound_toExpr : ∀ e : ExprNode, Loading.Sound Expr.details e.toExpr
  | .ident name o => .bindSpan o fun span hspan => by
      refine (Ensures.name .identifier name span).bind fun n => .pure fun w hn => ?_
      exact .cons hspan.isProper (.cons (Detail.sound_name hn .identifier) .nil)
  | .int _ o | .float _ o | .char _ o => .bindSpan o fun span hspan => .pure fun w =>
      .cons hspan.isProper .nil
  | .string value o => .bindSpan o fun span hspan => by
      refine (Ensures.intern value).bind fun n => .pure fun w hn => ?_
      exact .cons hspan.isProper (.cons (Interner.index_lt_of_get? hn) .nil)
  | .unary _ a o => .bindSpan o fun span hspan => by
      refine (sound_toExpr a).bind fun x => .pure fun w hx => ?_
      exact .cons hspan.isProper hx
  | .binary _ a b o | .assign _ a b o | .index a b o => .bindSpan o fun span hspan => by
      refine (sound_toExpr a).bind fun x => (sound_toExpr b).bind fun y =>
        .pure fun w hy hx => ?_
      exact .cons hspan.isProper (.append hx hy)
  | .call f args o => .bindSpan o fun span hspan => by
      refine (sound_toExpr f).bind fun x => (sound_toExprs args).bind fun y =>
        .pure fun w hy hx => ?_
      exact .cons hspan.isProper (.append hx hy)
  | .member a field _ o => .bindSpan o fun span hspan => by
      refine (sound_toExpr a).bind fun x => (Ensures.name .field field span).bind fun n =>
        .pure fun w hn hx => ?_
      exact .cons hspan.isProper (.cons (Detail.sound_name hn .field) hx)
  | .cast type a o => .bindSpan o fun span hspan => by
      refine (type.sound_toCType span).bind fun x => (sound_toExpr a).bind fun y =>
        .pure fun w hy hx => ?_
      exact .cons hspan.isProper (.append hx hy)
  | .ternary c a b o => .bindSpan o fun span hspan => by
      refine (sound_toExpr c).bind fun x => (sound_toExpr a).bind fun y =>
        (sound_toExpr b).bind fun z => .pure fun w hz hy hx => ?_
      exact .cons hspan.isProper (.append hx (.append hy hz))
  | .comma details o => .bindSpan o fun span hspan => by
      refine (sound_toExprs details).bind fun x => .pure fun w hx => ?_
      exact .cons hspan.isProper hx
  | .sizeOfType type o => .bindSpan o fun span hspan => by
      refine (type.sound_toCType span).bind fun x => .pure fun w hx => ?_
      exact .cons hspan.isProper hx

/-- So are those of several expressions. -/
theorem ExprNode.sound_toExprs : ∀ es : List ExprNode,
    Loading.Sound Expr.detailsList (ExprNode.toExprs es)
  | [] => .pure fun w => .nil
  | e :: rest => by
      refine (sound_toExpr e).bind fun x => (sound_toExprs rest).bind fun y =>
        .pure fun w hy hx => ?_
      exact .append hx hy

end

/-- So are those of an expression that may be missing. -/
theorem ExprNode.sound_toExprOption (e : Option ExprNode) :
    Loading.Sound (fun x => x.toList.flatMap (·.details)) (ExprNode.toExprOption e) := by
  cases e with
  | none => exact .pure fun w => .nil
  | some e =>
      refine e.sound_toExpr.bind fun x => .pure fun w hx => ?_
      exact .flatMap (List.forall_mem_singleton.mpr hx)

/-- The details of a loaded declarator are sound. -/
theorem DeclaratorNode.sound_toDeclarator (d : DeclaratorNode) :
    Loading.Sound Declarator.details d.toDeclarator := by
  refine .bindSpan _ fun span hspan => (Ensures.name .declarator d.name span).bind fun n =>
    (ExprNode.sound_toExprs d.dims).bind fun x =>
    (ExprNode.sound_toExprOption d.init).bind fun y => .pure fun w hy hx hn => ?_
  exact .cons hspan.isProper (.cons (Detail.sound_name hn .declarator) (.append hx hy))

/-- The details of a loaded declaration are sound, if its holder has a proper span. -/
theorem DeclarationNode.sound_toDeclaration (d : DeclarationNode) {span : Span}
    (hspan : span.IsProper) : Loading.Sound Declaration.details (d.toDeclaration span) := by
  refine (Ensures.mapM_forall DeclaratorNode.sound_toDeclarator d.declarators).bind fun x =>
    (d.type.sound_toCType span).bind fun y =>
    (Ensures.mapM_forall MarkerNode.sound_toMarker d.markers).bind fun z =>
    .pure fun w hz hy hx => ?_
  exact .cons hspan (.append (.flatMap hz) (.append hy (.flatMap hx)))

/-- The details of a loaded init clause are sound. -/
theorem InitNode.sound_toInit : ∀ init : InitNode, Loading.Sound ForInit.details init.toInit
  | .decl d => .bindSpan d.offsets fun span hspan => by
      refine (d.sound_toDeclaration hspan.isProper).bind fun x => .pure fun w hx => ?_
      exact hx
  | .expr e => by
      refine e.sound_toExpr.bind fun x => .pure fun w hx => ?_
      exact hx

/-- So are those of an init clause that may be missing. -/
theorem InitNode.sound_toInitOption (init : Option InitNode) :
    Loading.Sound (fun x => x.toList.flatMap (·.details)) (InitNode.toInitOption init) := by
  cases init with
  | none => exact .pure fun w => .nil
  | some init =>
      refine init.sound_toInit.bind fun x => .pure fun w hx => ?_
      exact .flatMap (List.forall_mem_singleton.mpr hx)

mutual

/-- The details of a loaded statement are sound. -/
theorem StmtNode.sound_toStmt : ∀ s : StmtNode, Loading.Sound Stmt.details s.toStmt
  | .expr e o => .bindSpan o fun span hspan => by
      refine e.sound_toExpr.bind fun x => .pure fun w hx => ?_
      exact .cons hspan.isProper hx
  | .decl d o => .bindSpan o fun span hspan => by
      refine (d.sound_toDeclaration hspan.isProper).bind fun x => .pure fun w hx => ?_
      exact .cons hspan.isProper hx
  | .block stmts o => .bindSpan o fun span hspan => by
      refine (sound_toStmts stmts).bind fun x => .pure fun w hx => ?_
      exact .cons hspan.isProper (.cons hspan.isProper hx)
  | .ifThen c a o | .whileLoop c a o | .switch c a o => .bindSpan o fun span hspan => by
      refine c.sound_toExpr.bind fun x => (sound_toStmt a).bind fun y =>
        .pure fun w hy hx => ?_
      exact .cons hspan.isProper (.append hx hy)
  | .doWhile a c o => .bindSpan o fun span hspan => by
      refine (sound_toStmt a).bind fun x => c.sound_toExpr.bind fun y =>
        .pure fun w hy hx => ?_
      exact .cons hspan.isProper (.append hx hy)
  | .ifElse c a b o => .bindSpan o fun span hspan => by
      refine c.sound_toExpr.bind fun x => (sound_toStmt a).bind fun y =>
        (sound_toStmt b).bind fun z => .pure fun w hz hy hx => ?_
      exact .cons hspan.isProper (.append hx (.append hy hz))
  | .forLoop init test update body markers o => .bindSpan o fun span hspan => by
      refine (InitNode.sound_toInitOption init).bind fun i =>
        (ExprNode.sound_toExprOption test).bind fun x =>
        (ExprNode.sound_toExprOption update).bind fun y =>
        (sound_toStmt body).bind fun b =>
        (Ensures.mapM_forall MarkerNode.sound_toMarker markers).bind fun m =>
        .pure fun w hm hb hy hx hi => ?_
      have hheader : AllSound w (LoopHeader.details ⟨i, x, y, m, span⟩) :=
        .cons hspan.isProper (.append (.flatMap hm) (.append hi (.append hx hy)))
      exact .cons hspan.isProper (.append hheader hb)
  | .caseLabel value o | .returnJump value o => .bindSpan o fun span hspan => by
      refine (ExprNode.sound_toExprOption value).bind fun x => .pure fun w hx => ?_
      exact .cons hspan.isProper hx
  | .breakJump o | .continueJump o | .empty o => .bindSpan o fun span hspan => .pure fun w =>
      .cons hspan.isProper .nil

/-- So are those of several statements. -/
theorem StmtNode.sound_toStmts : ∀ stmts : List StmtNode,
    Loading.Sound Stmt.detailsList (StmtNode.toStmts stmts)
  | [] => .pure fun w => .nil
  | s :: rest => by
      refine (sound_toStmt s).bind fun x => (sound_toStmts rest).bind fun y =>
        .pure fun w hy hx => ?_
      exact .append hx hy

end

/-- The details of a loaded block are sound. -/
theorem BlockNode.sound_toBlock (b : BlockNode) : Loading.Sound Block.details b.toBlock := by
  refine (StmtNode.sound_toStmts b.stmts).bind fun x => .bindSpan _ fun span hspan =>
    .pure fun w hx => ?_
  exact .cons hspan.isProper hx

/-- The details of a loaded parameter are sound. -/
theorem ParamNode.sound_toParam (p : ParamNode) : Loading.Sound Param.details p.toParam := by
  refine .bindSpan _ fun span hspan => (Ensures.name .parameter p.name span).bind fun n =>
    (p.type.sound_toCType span).bind fun x => .pure fun w hx hn => ?_
  exact .cons hspan.isProper (.cons (Detail.sound_name hn .parameter) hx)

/-- **The details of a loaded function** are sound. -/
theorem FunctionNode.sound_toFunction (f : FunctionNode) :
    Loading.Sound Function.details f.toFunction := by
  refine .bindSpan _ fun span hspan =>
    (Ensures.mapM_forall ParamNode.sound_toParam f.params).bind fun x =>
    (TypeNode.sound_returnType f.returns span).bind fun y =>
    (Ensures.name .function f.name span).bind fun n =>
    f.body.sound_toBlock.bind fun b =>
    (Ensures.mapM_forall MarkerNode.sound_toMarker f.markers).bind fun m =>
    .pure fun w hm hb hn hy hx => ?_
  exact .cons hspan.isProper (.cons (Detail.sound_name hn .function)
    (.append (.flatMap hm) (.append (.flatMap hx) (.append hy hb))))

/-- **Whatever loads is sound**, in every table with the names known after loading. -/
theorem Module.sound_parse (text origin : String) :
    Ensures (fun w m => ∀ f ∈ m.functions, AllSound w f.details) (Module.parse text origin) := by
  unfold Module.parse
  cases Document.parse text origin with
  | error e => exact .throw e
  | ok document =>
      have hdocument : Ensures (fun w m => ∀ f ∈ m.functions, AllSound w f.details)
          document.toModule := by
        refine (Ensures.mapM_forall FunctionNode.sound_toFunction document.functions).bind
          fun x => .pure fun w hx => ?_
        exact hx
      exact fun t m u hrun => hdocument t m u hrun

end KernelCheck
