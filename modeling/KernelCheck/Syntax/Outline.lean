import KernelCheck.Syntax.Function

/-!
# Outlines

The outline of a module is the tree of its nodes in source order: markers come
first, the body of a `do` loop stands before its condition, and the clauses of
a `for` header stand before its body.  Each node is described by a `Visit`, and
each visit belongs to a `Hook`.

* `Outline.preorder` lists the visits of a tree, parents first.  Hooks can be
  pruned: a visit of a pruned hook is listed, and what lies below it is not.
-/

namespace KernelCheck

/-- The kinds of nodes that an outline tells apart. -/
inductive Hook where
  | module | function | block | stmt | forLoop | declaration | declarator | marker | expr | ident
  deriving DecidableEq

/-- One node as a traversal meets it. -/
inductive Visit where
  | module (kernels : Nat)
  | function (span : Span)
  | block (span : Span)
  /-- A statement, whether it is a `for` loop, and how many statements it
  governs as a body. -/
  | stmt (span : Span) (isFor : Bool) (bodySize : Nat)
  | forLoop (span : Span)
  | declaration (span : Span)
  | declarator (span : Span)
  | marker (kind : MarkerKind)
  | expr (span : Span)
  /-- A mention of a variable; it stands below the expression that it is. -/
  | ident (name : Name) (span : Span)
  deriving DecidableEq

/-- The hook that a visit belongs to. -/
def Visit.hook : Visit → Hook
  | module _ => .module
  | function _ => .function
  | block _ => .block
  | stmt .. => .stmt
  | forLoop _ => .forLoop
  | declaration _ => .declaration
  | declarator _ => .declarator
  | marker _ => .marker
  | expr _ => .expr
  | ident .. => .ident

/-- A visit with the outlines of what lies below the node. -/
inductive Outline where
  | node (visit : Visit) (children : List Outline)

namespace Outline

/-- A node with nothing below it. -/
def leaf (visit : Visit) : Outline := node visit []

mutual

/-- The visits of the tree, each before those below it; nothing is listed from
below a pruned visit. -/
def preorder (pruned : Hook → Bool) : Outline → List Visit
  | node visit children =>
    visit :: if pruned visit.hook then [] else preorderList pruned children

/-- The visits of several trees, one after the other. -/
def preorderList (pruned : Hook → Bool) : List Outline → List Visit
  | [] => []
  | o :: rest => o.preorder pruned ++ preorderList pruned rest

end

end Outline

mutual

/-- The outline of an expression, operands from left to right. -/
def Expr.outline : Expr → Outline
  | .ident name s => .node (.expr s) [.leaf (.ident name s)]
  | .int _ s | .float _ s | .char _ s | .string _ s | .sizeOfType _ s => .leaf (.expr s)
  | .unary _ e s | .member e _ _ s | .cast _ e s => .node (.expr s) [e.outline]
  | .binary _ a b s | .assign _ a b s | .index a b s => .node (.expr s) [a.outline, b.outline]
  | .call f args s => .node (.expr s) (f.outline :: Expr.outlineList args)
  | .ternary c a b s => .node (.expr s) [c.outline, a.outline, b.outline]
  | .comma parts s => .node (.expr s) (Expr.outlineList parts)

/-- The outlines of several expressions. -/
def Expr.outlineList : List Expr → List Outline
  | [] => []
  | e :: rest => e.outline :: Expr.outlineList rest

end

/-- The outline of an optional expression: nothing if there is none. -/
def Expr.outlineOption : Option Expr → List Outline
  | none => []
  | some e => [e.outline]

/-- A marker is a leaf. -/
def Marker.outline (m : Marker) : Outline := .leaf (.marker m.kind)

/-- Dimensions come before the initial value. -/
def Declarator.outline (d : Declarator) : Outline :=
  .node (.declarator d.span) (Expr.outlineList d.dims ++ Expr.outlineOption d.init)

/-- Markers come before the declared names. -/
def Declaration.outline (d : Declaration) : Outline :=
  .node (.declaration d.span)
    (d.markers.map Marker.outline ++ d.declarators.map Declarator.outline)

/-- The one tree of an init clause. -/
def ForInit.outline : ForInit → Outline
  | .decl d => d.outline
  | .expr e => e.outline

/-- Markers, then the init clause, the test and the update. -/
def LoopHeader.outlines (h : LoopHeader) : List Outline :=
  h.markers.map Marker.outline ++ (h.init.map ForInit.outline).toList ++
    Expr.outlineOption h.test ++ Expr.outlineOption h.update

/-- The visit of a statement. -/
def Stmt.visit (s : Stmt) : Visit := .stmt s.span s.isFor s.governed.length

mutual

/-- The outline of a statement.  A loop has a visit of its own below that of
the statement, and so has a block. -/
def Stmt.outline (s : Stmt) : Outline :=
  match s with
  | .expr e _ => .node s.visit [e.outline]
  | .decl d _ => .node s.visit [d.outline]
  | .block stmts blockSpan _ =>
    .node s.visit [.node (.block blockSpan) (Stmt.outlineList stmts)]
  | .ifThen c a _ => .node s.visit [c.outline, a.outline]
  | .ifElse c a b _ => .node s.visit [c.outline, a.outline, b.outline]
  | .forLoop header body _ =>
    .node s.visit [.node (.forLoop header.span) (header.outlines ++ [body.outline])]
  | .whileLoop c body _ | .switch c body _ => .node s.visit [c.outline, body.outline]
  | .doWhile body c _ => .node s.visit [body.outline, c.outline]
  | .caseLabel value _ | .returnJump value _ => .node s.visit (Expr.outlineOption value)
  | .breakJump _ | .continueJump _ | .empty _ => .leaf s.visit

/-- The outlines of several statements. -/
def Stmt.outlineList : List Stmt → List Outline
  | [] => []
  | s :: rest => s.outline :: Stmt.outlineList rest

end

/-- The outline of a block. -/
def Block.outline (b : Block) : Outline :=
  .node (.block b.span) (Stmt.outlineList b.stmts)

/-- Markers come before the body; parameters are no nodes. -/
def Function.outline (f : Function) : Outline :=
  .node (.function f.span) (f.markers.map Marker.outline ++ [f.body.outline])

/-- The outline of a module, whose own visit counts the kernels. -/
def Module.outline (m : Module) : Outline :=
  .node (.module m.kernels.length) (m.functions.map Function.outline)

end KernelCheck
