import KernelCheck.Syntax.Operator

/-!
# Serialized modules

A front end hands a module over as a tree of nodes in which names are still
texts and places are pairs of offsets that nobody has checked.  The node types
follow the syntax tree; what a node leaves out has its default here already.
-/

namespace KernelCheck

/-- A pair of offsets as it was written. -/
structure Offsets where
  start : Nat
  stop : Nat
  deriving DecidableEq

/-- The offsets of a node that gives none. -/
def Offsets.default : Offsets := ⟨0, 0⟩

/-- A marker, with or without the `@` in front of its word. -/
structure MarkerNode where
  word : String
  offsets : Offsets
  deriving DecidableEq

/-- A type; the base is a keyword or the name of a typedef. -/
structure TypeNode where
  base : String
  isUnsigned : Bool
  isConst : Bool
  pointerDepth : Nat
  deriving DecidableEq

/-- A parameter. -/
structure ParamNode where
  name : String
  type : TypeNode
  offsets : Offsets
  deriving DecidableEq

/-- An expression. -/
inductive ExprNode where
  | ident (name : String) (offsets : Offsets)
  | int (value : Int) (offsets : Offsets)
  | float (bits : UInt64) (offsets : Offsets)
  | char (value : Char) (offsets : Offsets)
  | string (value : String) (offsets : Offsets)
  | unary (op : UnaryOp) (operand : ExprNode) (offsets : Offsets)
  | binary (op : BinaryOp) (left right : ExprNode) (offsets : Offsets)
  | assign (op : AssignOp) (target value : ExprNode) (offsets : Offsets)
  | call (callee : ExprNode) (args : List ExprNode) (offsets : Offsets)
  | index (base subscript : ExprNode) (offsets : Offsets)
  | member (base : ExprNode) (field : String) (arrow : Bool) (offsets : Offsets)
  | cast (type : TypeNode) (operand : ExprNode) (offsets : Offsets)
  | ternary (condition thenValue elseValue : ExprNode) (offsets : Offsets)
  | comma (parts : List ExprNode) (offsets : Offsets)
  | sizeOfType (type : TypeNode) (offsets : Offsets)

/-- One declared name. -/
structure DeclaratorNode where
  name : String
  dims : List ExprNode
  init : Option ExprNode
  offsets : Offsets

/-- A declaration.  One that makes up a statement stands where the statement does,
whatever offsets it has. -/
structure DeclarationNode where
  type : TypeNode
  declarators : List DeclaratorNode
  markers : List MarkerNode
  offsets : Offsets

/-- First clause of a loop header. -/
inductive InitNode where
  | decl (declaration : DeclarationNode)
  | expr (e : ExprNode)

/-- A statement.  The markers of a loop are listed after its body, where they
are judged. -/
inductive StmtNode where
  | expr (e : ExprNode) (offsets : Offsets)
  | decl (declaration : DeclarationNode) (offsets : Offsets)
  | block (stmts : List StmtNode) (offsets : Offsets)
  | ifThen (condition : ExprNode) (thenBranch : StmtNode) (offsets : Offsets)
  | ifElse (condition : ExprNode) (thenBranch elseBranch : StmtNode) (offsets : Offsets)
  | forLoop (init : Option InitNode) (test update : Option ExprNode) (body : StmtNode)
      (markers : List MarkerNode) (offsets : Offsets)
  | whileLoop (condition : ExprNode) (body : StmtNode) (offsets : Offsets)
  | doWhile (body : StmtNode) (condition : ExprNode) (offsets : Offsets)
  | switch (scrutinee : ExprNode) (body : StmtNode) (offsets : Offsets)
  | caseLabel (value : Option ExprNode) (offsets : Offsets)
  | breakJump (offsets : Offsets)
  | continueJump (offsets : Offsets)
  | returnJump (value : Option ExprNode) (offsets : Offsets)
  | empty (offsets : Offsets)

/-- The body of a function. -/
structure BlockNode where
  stmts : List StmtNode
  offsets : Offsets

/-- A function; without a return type it returns nothing. -/
structure FunctionNode where
  name : String
  markers : List MarkerNode
  params : List ParamNode
  returns : Option TypeNode
  body : BlockNode
  offsets : Offsets

/-- A whole serialized module. -/
structure Document where
  functions : List FunctionNode

end KernelCheck
