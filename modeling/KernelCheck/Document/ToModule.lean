import KernelCheck.Document.Basic
import KernelCheck.Syntax.Function

/-!
# From documents to modules

A serialized module becomes a syntax tree: texts become names of one table, and
offsets become spans.  Both can fail, on offsets that are no span and on a name
that is empty where something has to be named.  A string literal names nothing
and may be empty.

Nodes are taken in one fixed order, and the first failure is the answer.  A
node's own offsets come first, so that an empty name can be reported with a
valid place.
-/

namespace KernelCheck

/-- What an identifier in a module names. -/
inductive NameRole where
  | function | parameter | declarator | identifier | field | type | marker
  deriving DecidableEq

/-- The role in words. -/
def NameRole.text : NameRole → String
  | function => "function"
  | parameter => "parameter"
  | declarator => "variable"
  | identifier => "identifier"
  | field => "field"
  | type => "type"
  | marker => "attribute"

/-- Why a text or document is no module. -/
inductive LoadError where
  /-- The text is no JSON, or not of the schema. -/
  | notADocument (origin : String)
  | badSpan (cause : SpanError)
  | emptyName (role : NameRole) (span : Span)
  deriving DecidableEq

/-- The error in words. -/
def LoadError.message : LoadError → String
  | notADocument origin => s!"`{origin}` is not a valid AST"
  | badSpan cause => s!"invalid span: {cause.message}"
  | emptyName role span => s!"empty {role.text} name at {span.text}"

/-- A step of loading: it may add names to the table. -/
abbrev Loading (α : Type) := StateT Interner (Except LoadError) α

namespace Loading

/-- The name of a text, empty or not. -/
def intern (s : String) : Loading Name := modifyGet fun t => t.intern s

/-- The name of a text that has to name something. -/
def name (role : NameRole) (s : String) (span : Span) : Loading Name :=
  if s.isEmpty then throw (.emptyName role span) else intern s

end Loading

/-- The span that the offsets give. -/
def Offsets.toSpan (o : Offsets) : Loading Span :=
  match Span.ofOffsets o.start o.stop with
  | .ok span => pure span
  | .error cause => throw (.badSpan cause)

/-- The word of a marker without the `@` that may stand in front; only one is
taken off. -/
def MarkerNode.bareWord (m : MarkerNode) : String :=
  match m.word.toList with
  | '@' :: rest => String.ofList rest
  | _ => m.word

/-- A marker needs a word. -/
def MarkerNode.toMarker (m : MarkerNode) : Loading Marker := do
  let span ← m.offsets.toSpan
  if m.bareWord.isEmpty then throw (.emptyName .marker span)
  let kind ← modifyGet fun t => MarkerKind.ofText m.bareWord t
  return ⟨kind, span⟩

/-- The type of a node that stands at `span`. -/
def TypeNode.toCType (c : TypeNode) (span : Span) : Loading CType := do
  let base ←
    match BaseType.keyword? c.base with
    | some base => pure base
    | none => BaseType.named <$> Loading.name .type c.base span
  return {
    base
    isUnsigned := c.isUnsigned
    isConst := c.isConst
    pointerDepth := c.pointerDepth }

/-- A parameter: its name before its type. -/
def ParamNode.toParam (p : ParamNode) : Loading Param := do
  let span ← p.offsets.toSpan
  let name ← Loading.name .parameter p.name span
  let type ← p.type.toCType span
  return ⟨name, type, span⟩

mutual

/-- An expression: its operands in source order.  The base of a member access
comes before the field, the type of a cast before the operand. -/
def ExprNode.toExpr : ExprNode → Loading Expr
  | .ident name o => do
    let span ← o.toSpan
    return .ident (← Loading.name .identifier name span) span
  | .int value o => return .int value (← o.toSpan)
  | .float bits o => return .float bits (← o.toSpan)
  | .char value o => return .char value (← o.toSpan)
  | .string value o => do
    let span ← o.toSpan
    return .string (← Loading.intern value) span
  | .unary op a o => do
    let span ← o.toSpan
    return .unary op (← a.toExpr) span
  | .binary op a b o => do
    let span ← o.toSpan
    let a ← a.toExpr
    return .binary op a (← b.toExpr) span
  | .assign op a b o => do
    let span ← o.toSpan
    let a ← a.toExpr
    return .assign op a (← b.toExpr) span
  | .call f args o => do
    let span ← o.toSpan
    let f ← f.toExpr
    return .call f (← ExprNode.toExprs args) span
  | .index a b o => do
    let span ← o.toSpan
    let a ← a.toExpr
    return .index a (← b.toExpr) span
  | .member a field arrow o => do
    let span ← o.toSpan
    let a ← a.toExpr
    return .member a (← Loading.name .field field span) arrow span
  | .cast type a o => do
    let span ← o.toSpan
    let type ← type.toCType span
    return .cast type (← a.toExpr) span
  | .ternary c a b o => do
    let span ← o.toSpan
    let c ← c.toExpr
    let a ← a.toExpr
    return .ternary c a (← b.toExpr) span
  | .comma parts o => do
    let span ← o.toSpan
    return .comma (← ExprNode.toExprs parts) span
  | .sizeOfType type o => do
    let span ← o.toSpan
    return .sizeOfType (← type.toCType span) span

/-- Several expressions, from left to right. -/
def ExprNode.toExprs : List ExprNode → Loading (List Expr)
  | [] => return []
  | e :: rest => do
    let e ← e.toExpr
    return e :: (← ExprNode.toExprs rest)

end

/-- An expression that may be missing. -/
def ExprNode.toExprOption : Option ExprNode → Loading (Option Expr)
  | none => return none
  | some e => return some (← e.toExpr)

/-- A declared name, its dimensions and its initial value. -/
def DeclaratorNode.toDeclarator (d : DeclaratorNode) : Loading Declarator := do
  let span ← d.offsets.toSpan
  let name ← Loading.name .declarator d.name span
  let dims ← ExprNode.toExprs d.dims
  let init ← ExprNode.toExprOption d.init
  return { name, dims, init, span }

/-- A declaration that stands at `span`: the declared names, then the type, then
the markers. -/
def DeclarationNode.toDeclaration (d : DeclarationNode) (span : Span) : Loading Declaration := do
  let declarators ← d.declarators.mapM DeclaratorNode.toDeclarator
  let type ← d.type.toCType span
  let markers ← d.markers.mapM MarkerNode.toMarker
  return { type, declarators, markers, span }

/-- An init clause.  A declaration there has a place of its own. -/
def InitNode.toInit : InitNode → Loading ForInit
  | .decl d => do
    let span ← d.offsets.toSpan
    return .decl (← d.toDeclaration span)
  | .expr e => return .expr (← e.toExpr)

/-- An init clause that may be missing. -/
def InitNode.toInitOption : Option InitNode → Loading (Option ForInit)
  | none => return none
  | some init => return some (← init.toInit)

mutual

/-- A statement: its parts in source order, and the markers of a loop last.  The
place of a declaration statement is also that of the declaration. -/
def StmtNode.toStmt : StmtNode → Loading Stmt
  | .expr e o => do
    let span ← o.toSpan
    return .expr (← e.toExpr) span
  | .decl d o => do
    let span ← o.toSpan
    return .decl (← d.toDeclaration span) span
  | .block stmts o => do
    let span ← o.toSpan
    return .block (← StmtNode.toStmts stmts) span span
  | .ifThen c a o => do
    let span ← o.toSpan
    let c ← c.toExpr
    return .ifThen c (← a.toStmt) span
  | .ifElse c a b o => do
    let span ← o.toSpan
    let c ← c.toExpr
    let a ← a.toStmt
    return .ifElse c a (← b.toStmt) span
  | .forLoop init test update body markers o => do
    let span ← o.toSpan
    let init ← InitNode.toInitOption init
    let test ← ExprNode.toExprOption test
    let update ← ExprNode.toExprOption update
    let body ← body.toStmt
    let markers ← markers.mapM MarkerNode.toMarker
    return .forLoop { init, test, update, markers, span } body span
  | .whileLoop c body o => do
    let span ← o.toSpan
    let c ← c.toExpr
    return .whileLoop c (← body.toStmt) span
  | .doWhile body c o => do
    let span ← o.toSpan
    let body ← body.toStmt
    return .doWhile body (← c.toExpr) span
  | .switch c body o => do
    let span ← o.toSpan
    let c ← c.toExpr
    return .switch c (← body.toStmt) span
  | .caseLabel value o => do
    let span ← o.toSpan
    return .caseLabel (← ExprNode.toExprOption value) span
  | .breakJump o => return .breakJump (← o.toSpan)
  | .continueJump o => return .continueJump (← o.toSpan)
  | .returnJump value o => do
    let span ← o.toSpan
    return .returnJump (← ExprNode.toExprOption value) span
  | .empty o => return .empty (← o.toSpan)

/-- Several statements, one after the other. -/
def StmtNode.toStmts : List StmtNode → Loading (List Stmt)
  | [] => return []
  | s :: rest => do
    let s ← s.toStmt
    return s :: (← StmtNode.toStmts rest)

end

/-- A body: its statements before its own place. -/
def BlockNode.toBlock (b : BlockNode) : Loading Block := do
  let stmts ← StmtNode.toStmts b.stmts
  let span ← b.offsets.toSpan
  return ⟨stmts, span⟩

/-- The return type of a function that stands at `span`. -/
def TypeNode.returnType (returns : Option TypeNode) (span : Span) : Loading CType :=
  match returns with
  | some type => type.toCType span
  | none => return { base := .void }

/-- A function: parameters, return type, name, body, and markers last. -/
def FunctionNode.toFunction (f : FunctionNode) : Loading Function := do
  let span ← f.offsets.toSpan
  let params ← f.params.mapM ParamNode.toParam
  let returns ← TypeNode.returnType f.returns span
  let name ← Loading.name .function f.name span
  let body ← f.body.toBlock
  let markers ← f.markers.mapM MarkerNode.toMarker
  return { name, params, returns, body, markers, span }

/-- A module, function by function. -/
def Document.toModule (d : Document) : Loading Module := do
  return ⟨← d.functions.mapM FunctionNode.toFunction⟩

end KernelCheck
