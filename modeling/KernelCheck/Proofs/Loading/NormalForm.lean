import KernelCheck.Document.ToModule

/-!
# Normal forms of documents

A document can say the same in several ways.  A marker may have an `@` in front, `bool`
has a second spelling, a function that returns nothing need not say so, and a
declaration that makes up a statement has offsets that nobody looks at.

* `Document.normal` is the document without these differences.
* `Document.toModule_congr` — documents with the same normal form are loaded by the same
  steps.

A normal form is a document to compare and not one to load: a marker whose word starts
with an `@` has lost it there, and loading would take off one that belongs to the word.
-/

namespace KernelCheck

/-! ## Normal forms -/

/-- `bool` has one spelling. -/
def TypeNode.normal (c : TypeNode) : TypeNode :=
  { c with base := if c.base = "_Bool" then "bool" else c.base }

/-- A marker has no `@`. -/
def MarkerNode.normal (m : MarkerNode) : MarkerNode := { m with word := m.bareWord }

def ParamNode.normal (p : ParamNode) : ParamNode := { p with type := p.type.normal }

mutual

def ExprNode.normal : ExprNode → ExprNode
  | .ident name o => .ident name o
  | .int value o => .int value o
  | .float bits o => .float bits o
  | .char value o => .char value o
  | .string value o => .string value o
  | .unary op a o => .unary op a.normal o
  | .binary op a b o => .binary op a.normal b.normal o
  | .assign op a b o => .assign op a.normal b.normal o
  | .call f args o => .call f.normal (ExprNode.normals args) o
  | .index a b o => .index a.normal b.normal o
  | .member a field arrow o => .member a.normal field arrow o
  | .cast type a o => .cast type.normal a.normal o
  | .ternary c a b o => .ternary c.normal a.normal b.normal o
  | .comma parts o => .comma (ExprNode.normals parts) o
  | .sizeOfType type o => .sizeOfType type.normal o

def ExprNode.normals : List ExprNode → List ExprNode
  | [] => []
  | e :: rest => e.normal :: ExprNode.normals rest

end

def DeclaratorNode.normal (d : DeclaratorNode) : DeclaratorNode :=
  { d with dims := ExprNode.normals d.dims, init := d.init.map (·.normal) }

/-- A declaration that stands at some offsets. -/
def DeclarationNode.normalAt (o : Offsets) (d : DeclarationNode) : DeclarationNode :=
  ⟨d.type.normal, d.declarators.map (·.normal), d.markers.map (·.normal), o⟩

def InitNode.normal : InitNode → InitNode
  | .decl d => .decl (d.normalAt d.offsets)
  | .expr e => .expr e.normal

mutual

/-- A declaration that makes up a statement has the offsets of the statement. -/
def StmtNode.normal : StmtNode → StmtNode
  | .expr e o => .expr e.normal o
  | .decl d o => .decl (d.normalAt o) o
  | .block stmts o => .block (StmtNode.normals stmts) o
  | .ifThen c a o => .ifThen c.normal a.normal o
  | .ifElse c a b o => .ifElse c.normal a.normal b.normal o
  | .forLoop init test update body markers o =>
    .forLoop (init.map (·.normal)) (test.map (·.normal)) (update.map (·.normal)) body.normal
      (markers.map (·.normal)) o
  | .whileLoop c body o => .whileLoop c.normal body.normal o
  | .doWhile body c o => .doWhile body.normal c.normal o
  | .switch c body o => .switch c.normal body.normal o
  | .caseLabel value o => .caseLabel (value.map (·.normal)) o
  | .breakJump o => .breakJump o
  | .continueJump o => .continueJump o
  | .returnJump value o => .returnJump (value.map (·.normal)) o
  | .empty o => .empty o

def StmtNode.normals : List StmtNode → List StmtNode
  | [] => []
  | s :: rest => s.normal :: StmtNode.normals rest

end

def BlockNode.normal (b : BlockNode) : BlockNode := { b with stmts := StmtNode.normals b.stmts }

/-- The type of a function that returns nothing. -/
def TypeNode.plainVoid : TypeNode := ⟨"void", false, false, 0⟩

/-- A function says what it returns. -/
def FunctionNode.normal (f : FunctionNode) : FunctionNode :=
  ⟨f.name, f.markers.map (·.normal), f.params.map (·.normal),
    some (f.returns.getD .plainVoid).normal, f.body.normal, f.offsets⟩

/-- The document without what a module cannot tell. -/
def Document.normal (d : Document) : Document := ⟨d.functions.map (·.normal)⟩

open Loading

/-! ## Loading by the normal form -/

/-- Lists that are the same in normal form are loaded alike. -/
theorem Loading.mapM_congr {α δ γ : Type} {f : δ → Loading α} {g : δ → γ}
    (hf : ∀ {d d'}, g d = g d' → f d = f d') : ∀ {ds ds' : List δ}, ds.map g = ds'.map g →
      ds.mapM f = ds'.mapM f
  | [], [], _ => rfl
  | [], _ :: _, h | _ :: _, [], h => by cases h
  | d :: rest, d' :: rest', h => by
      rw [List.map_cons, List.map_cons, List.cons.injEq] at h
      rw [List.mapM_cons, List.mapM_cons, hf h.1, mapM_congr hf h.2]

/-- A marker is loaded by its normal form. -/
theorem MarkerNode.toMarker_congr {m m' : MarkerNode} (h : m.normal = m'.normal) :
    m.toMarker = m'.toMarker := by
  have hword : m.bareWord = m'.bareWord := congrArg MarkerNode.word h
  have hoffsets : m.offsets = m'.offsets := congrArg (·.offsets) h
  rw [toMarker, toMarker, hword, hoffsets]

/-- The normal form of a type is loaded as the type is. -/
theorem TypeNode.toCType_normal (c : TypeNode) (span : Span) :
    c.normal.toCType span = c.toCType span := by
  obtain ⟨base, u, k, p⟩ := c
  by_cases h : base = "_Bool"
  · subst h
    rfl
  · rw [normal, if_neg h]

/-- A type is loaded by its normal form. -/
theorem TypeNode.toCType_congr {c c' : TypeNode} (h : c.normal = c'.normal) (span : Span) :
    c.toCType span = c'.toCType span := by
  rw [← toCType_normal c, h, toCType_normal]

/-- The word `void` is the type that a missing return type stands for. -/
theorem TypeNode.returnType_eq (returns : Option TypeNode) (span : Span) :
    TypeNode.returnType returns span = (returns.getD .plainVoid).toCType span := by
  cases returns with
  | none => rfl
  | some type => rfl

mutual

/-- The normal form of an expression is loaded as the expression is. -/
theorem ExprNode.toExpr_normal : ∀ e : ExprNode, e.normal.toExpr = e.toExpr
  | .ident .. | .int .. | .float .. | .char .. | .string .. => by rw [normal]
  | .unary _ a _ | .member a _ _ _ => by rw [normal, toExpr, toExpr, toExpr_normal a]
  | .binary _ a b _ | .assign _ a b _ | .index a b _ => by
      rw [normal, toExpr, toExpr, toExpr_normal a, toExpr_normal b]
  | .call f args _ => by rw [normal, toExpr, toExpr, toExpr_normal f, toExprs_normals args]
  | .cast type a _ => by simp only [normal, toExpr, type.toCType_normal, toExpr_normal a]
  | .ternary c a b _ => by
      rw [normal, toExpr, toExpr, toExpr_normal c, toExpr_normal a, toExpr_normal b]
  | .comma parts _ => by rw [normal, toExpr, toExpr, toExprs_normals parts]
  | .sizeOfType type _ => by simp only [normal, toExpr, type.toCType_normal]

/-- The same for several expressions. -/
theorem ExprNode.toExprs_normals : ∀ es : List ExprNode, toExprs (normals es) = toExprs es
  | [] => rfl
  | e :: rest => by rw [normals, toExprs, toExprs, toExpr_normal e, toExprs_normals rest]

end

/-- An expression is loaded by its normal form. -/
theorem ExprNode.toExpr_congr {e e' : ExprNode} (h : e.normal = e'.normal) :
    e.toExpr = e'.toExpr := by
  rw [← toExpr_normal e, h, toExpr_normal]

/-- So are several expressions. -/
theorem ExprNode.toExprs_congr {es es' : List ExprNode} (h : normals es = normals es') :
    toExprs es = toExprs es' := by
  rw [← toExprs_normals es, h, toExprs_normals]

/-- So is an expression that may be missing. -/
theorem ExprNode.toExprOption_congr : ∀ {e e' : Option ExprNode},
    e.map (·.normal) = e'.map (·.normal) → toExprOption e = toExprOption e'
  | none, none, _ => rfl
  | none, some _, h | some _, none, h => by cases h
  | some e, some e', h => by
      have he : e.toExpr = e'.toExpr := toExpr_congr (Option.some.inj h)
      rw [toExprOption, toExprOption, he]

/-- A declarator is loaded by its normal form. -/
theorem DeclaratorNode.toDeclarator_congr {d d' : DeclaratorNode} (h : d.normal = d'.normal) :
    d.toDeclarator = d'.toDeclarator := by
  obtain ⟨name, dims, init, o⟩ := d
  obtain ⟨name', dims', init', o'⟩ := d'
  simp only [normal, mk.injEq] at h
  obtain ⟨rfl, hdims, hinit, rfl⟩ := h
  simp only [toDeclarator, ExprNode.toExprs_congr hdims, ExprNode.toExprOption_congr hinit]

/-- The offsets of a declaration have no part in it once it has a place. -/
theorem DeclarationNode.toDeclaration_congr {d d' : DeclarationNode} {o o' : Offsets}
    (h : d.normalAt o = d'.normalAt o') (span : Span) :
    d.toDeclaration span = d'.toDeclaration span := by
  simp only [normalAt, mk.injEq] at h
  obtain ⟨htype, hdeclarators, hmarkers, -⟩ := h
  rw [toDeclaration, toDeclaration, TypeNode.toCType_congr htype,
    mapM_congr DeclaratorNode.toDeclarator_congr hdeclarators,
    mapM_congr MarkerNode.toMarker_congr hmarkers]

/-- An init clause is loaded by its normal form. -/
theorem InitNode.toInit_congr : ∀ {init init' : InitNode}, init.normal = init'.normal →
    init.toInit = init'.toInit
  | .decl d, .decl d', h => by
      have hd := InitNode.decl.inj h
      have hoffsets : d.offsets = d'.offsets := congrArg (·.offsets) hd
      simp only [toInit, hoffsets, DeclarationNode.toDeclaration_congr hd]
  | .expr e, .expr e', h => by
      rw [toInit, toInit, ExprNode.toExpr_congr (InitNode.expr.inj h)]
  | .decl _, .expr _, h | .expr _, .decl _, h => by cases h

/-- So is an init clause that may be missing. -/
theorem InitNode.toInitOption_congr : ∀ {init init' : Option InitNode},
    init.map (·.normal) = init'.map (·.normal) → toInitOption init = toInitOption init'
  | none, none, _ => rfl
  | none, some _, h | some _, none, h => by cases h
  | some init, some init', h => by
      have hinit : init.toInit = init'.toInit := toInit_congr (Option.some.inj h)
      rw [toInitOption, toInitOption, hinit]

mutual

/-- A statement is loaded by its normal form. -/
theorem StmtNode.toStmt_congr : ∀ {s s' : StmtNode}, s.normal = s'.normal → s.toStmt = s'.toStmt
  | .expr e o, s', h => by
      cases s' with
      | expr e' o' =>
          obtain ⟨he, rfl⟩ := expr.inj h
          rw [toStmt, toStmt, ExprNode.toExpr_congr he]
      | _ => cases h
  | .decl d o, s', h => by
      cases s' with
      | decl d' o' =>
          obtain ⟨hd, rfl⟩ := decl.inj h
          simp only [toStmt, DeclarationNode.toDeclaration_congr hd]
      | _ => cases h
  | .block stmts o, s', h => by
      cases s' with
      | block stmts' o' =>
          obtain ⟨hstmts, rfl⟩ := block.inj h
          rw [toStmt, toStmt, toStmts_congr hstmts]
      | _ => cases h
  | .ifThen c a o, s', h => by
      cases s' with
      | ifThen c' a' o' =>
          obtain ⟨hc, ha, rfl⟩ := ifThen.inj h
          rw [toStmt, toStmt, ExprNode.toExpr_congr hc, toStmt_congr ha]
      | _ => cases h
  | .ifElse c a b o, s', h => by
      cases s' with
      | ifElse c' a' b' o' =>
          obtain ⟨hc, ha, hb, rfl⟩ := ifElse.inj h
          rw [toStmt, toStmt, ExprNode.toExpr_congr hc, toStmt_congr ha, toStmt_congr hb]
      | _ => cases h
  | .forLoop init test update body markers o, s', h => by
      cases s' with
      | forLoop init' test' update' body' markers' o' =>
          obtain ⟨hinit, htest, hupdate, hbody, hmarkers, rfl⟩ := forLoop.inj h
          rw [toStmt, toStmt, InitNode.toInitOption_congr hinit,
            ExprNode.toExprOption_congr htest, ExprNode.toExprOption_congr hupdate,
            toStmt_congr hbody, mapM_congr MarkerNode.toMarker_congr hmarkers]
      | _ => cases h
  | .whileLoop c body o, s', h => by
      cases s' with
      | whileLoop c' body' o' =>
          obtain ⟨hc, hbody, rfl⟩ := whileLoop.inj h
          rw [toStmt, toStmt, ExprNode.toExpr_congr hc, toStmt_congr hbody]
      | _ => cases h
  | .doWhile body c o, s', h => by
      cases s' with
      | doWhile body' c' o' =>
          obtain ⟨hbody, hc, rfl⟩ := doWhile.inj h
          rw [toStmt, toStmt, toStmt_congr hbody, ExprNode.toExpr_congr hc]
      | _ => cases h
  | .switch c body o, s', h => by
      cases s' with
      | switch c' body' o' =>
          obtain ⟨hc, hbody, rfl⟩ := switch.inj h
          rw [toStmt, toStmt, ExprNode.toExpr_congr hc, toStmt_congr hbody]
      | _ => cases h
  | .caseLabel value o, s', h => by
      cases s' with
      | caseLabel value' o' =>
          obtain ⟨hvalue, rfl⟩ := caseLabel.inj h
          rw [toStmt, toStmt, ExprNode.toExprOption_congr hvalue]
      | _ => cases h
  | .returnJump value o, s', h => by
      cases s' with
      | returnJump value' o' =>
          obtain ⟨hvalue, rfl⟩ := returnJump.inj h
          rw [toStmt, toStmt, ExprNode.toExprOption_congr hvalue]
      | _ => cases h
  | .breakJump _, s', h | .continueJump _, s', h | .empty _, s', h => by
      cases s' <;> cases h
      rfl

/-- So are several statements. -/
theorem StmtNode.toStmts_congr : ∀ {stmts stmts' : List StmtNode},
    normals stmts = normals stmts' → toStmts stmts = toStmts stmts'
  | [], [], _ => rfl
  | [], _ :: _, h | _ :: _, [], h => by cases h
  | s :: rest, s' :: rest', h => by
      obtain ⟨hs, hrest⟩ := List.cons.inj h
      rw [toStmts, toStmts, toStmt_congr hs, toStmts_congr hrest]

end

/-- A parameter is loaded by its normal form. -/
theorem ParamNode.toParam_congr {p p' : ParamNode} (h : p.normal = p'.normal) :
    p.toParam = p'.toParam := by
  obtain ⟨name, type, o⟩ := p
  obtain ⟨name', type', o'⟩ := p'
  simp only [normal, mk.injEq] at h
  obtain ⟨rfl, htype, rfl⟩ := h
  simp only [toParam, TypeNode.toCType_congr htype]

/-- A block is loaded by its normal form. -/
theorem BlockNode.toBlock_congr {b b' : BlockNode} (h : b.normal = b'.normal) :
    b.toBlock = b'.toBlock := by
  obtain ⟨stmts, o⟩ := b
  obtain ⟨stmts', o'⟩ := b'
  simp only [normal, mk.injEq] at h
  obtain ⟨hstmts, rfl⟩ := h
  rw [toBlock, toBlock, StmtNode.toStmts_congr hstmts]

/-- A function is loaded by its normal form. -/
theorem FunctionNode.toFunction_congr {f f' : FunctionNode} (h : f.normal = f'.normal) :
    f.toFunction = f'.toFunction := by
  obtain ⟨name, markers, params, returns, body, o⟩ := f
  obtain ⟨name', markers', params', returns', body', o'⟩ := f'
  simp only [normal, mk.injEq] at h
  obtain ⟨rfl, hmarkers, hparams, hreturns, hbody, rfl⟩ := h
  simp only [toFunction, mapM_congr MarkerNode.toMarker_congr hmarkers,
    mapM_congr ParamNode.toParam_congr hparams, TypeNode.returnType_eq,
    TypeNode.toCType_congr (Option.some.inj hreturns), BlockNode.toBlock_congr hbody]

/-- **Documents with the same normal form are loaded by the same steps**, whatever the
table is and whether they succeed or not. -/
theorem Document.toModule_congr {d d' : Document} (h : d.normal = d'.normal) :
    d.toModule = d'.toModule := by
  have hfunctions : d.functions.map (·.normal) = d'.functions.map (·.normal) :=
    congrArg Document.functions h
  rw [toModule, toModule, mapM_congr FunctionNode.toFunction_congr hfunctions]

end KernelCheck
