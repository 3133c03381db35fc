import KernelCheck.Syntax.Expr
import KernelCheck.Syntax.Marker

/-!
# Declarations, loops and statements

The statement tree.  What the rules say about a `for` loop they say about its
header, so the header is a value of its own and the loop statement pairs it with
a body.  A block that stands as a statement has two spans, its own and that of
the statement.
-/

namespace KernelCheck

/-- One declared name with its array dimensions and its initial value. -/
structure Declarator where
  name : Name
  dims : List Expr
  init : Option Expr
  span : Span

/-- A type, the names declared with it and the markers in front. -/
structure Declaration where
  type : CType
  declarators : List Declarator
  markers : List Marker
  span : Span

/-- First clause of a loop header. -/
inductive ForInit where
  | decl (declaration : Declaration)
  | expr (e : Expr)

/-- Header of a `for` loop: three optional clauses, the markers and the span of
the whole loop. -/
structure LoopHeader where
  init : Option ForInit
  test : Option Expr
  update : Option Expr
  markers : List Marker
  span : Span

/-- A C statement. -/
inductive Stmt where
  | expr (e : Expr) (span : Span)
  | decl (declaration : Declaration) (span : Span)
  | block (stmts : List Stmt) (blockSpan span : Span)
  | ifThen (condition : Expr) (thenBranch : Stmt) (span : Span)
  | ifElse (condition : Expr) (thenBranch elseBranch : Stmt) (span : Span)
  | forLoop (header : LoopHeader) (body : Stmt) (span : Span)
  | whileLoop (condition : Expr) (body : Stmt) (span : Span)
  | doWhile (body : Stmt) (condition : Expr) (span : Span)
  | switch (scrutinee : Expr) (body : Stmt) (span : Span)
  /-- A case label with its value, or the default label without one. -/
  | caseLabel (value : Option Expr) (span : Span)
  | breakJump (span : Span)
  | continueJump (span : Span)
  | returnJump (value : Option Expr) (span : Span)
  | empty (span : Span)

/-- A brace-enclosed sequence of statements. -/
structure Block where
  stmts : List Stmt
  span : Span

namespace Declaration

/-- Some marker of the declaration is of this kind. -/
def hasMarker (d : Declaration) (kind : MarkerKind) : Bool :=
  d.markers.any (·.kind == kind)

end Declaration

namespace ForInit

/-- Where the clause stands. -/
def span : ForInit → Span
  | decl d => d.span
  | expr e => e.span

end ForInit

namespace LoopHeader

/-- Some marker of the loop is of this kind. -/
def hasMarker (h : LoopHeader) (kind : MarkerKind) : Bool :=
  h.markers.any (·.kind == kind)

/-- The variable that the header declares, if it declares exactly one. -/
def declaredVar? (h : LoopHeader) : Option Name :=
  match h.init with
  | some (.decl { declarators := [only], .. }) => some only.name
  | _ => none

end LoopHeader

namespace Stmt

/-- Where the statement stands. -/
def span : Stmt → Span
  | expr _ s | decl _ s | block _ _ s | ifThen _ _ s | ifElse _ _ _ s | forLoop _ _ s
  | whileLoop _ _ s | doWhile _ _ s | switch _ _ s | caseLabel _ s | breakJump s
  | continueJump s | returnJump _ s | empty s => s

/-- The statement is a `for` loop. -/
def isFor : Stmt → Bool
  | forLoop .. => true
  | _ => false

/-- What the statement governs when it is the body of another: the contents of
a block, or itself. -/
def governed : Stmt → List Stmt
  | block stmts _ _ => stmts
  | s => [s]

mutual

/-- The headers of all `for` loops in the statement, each before those inside
its body. -/
def loops : Stmt → List LoopHeader
  | expr .. | decl .. | caseLabel .. | breakJump .. | continueJump .. | returnJump ..
  | empty .. => []
  | block stmts _ _ => loopsList stmts
  | ifThen _ a _ => a.loops
  | ifElse _ a b _ => a.loops ++ b.loops
  | forLoop header body _ => header :: body.loops
  | whileLoop _ body _ | doWhile body _ _ | switch _ body _ => body.loops

/-- The headers of all loops in several statements. -/
def loopsList : List Stmt → List LoopHeader
  | [] => []
  | s :: rest => s.loops ++ loopsList rest

end

end Stmt

end KernelCheck
