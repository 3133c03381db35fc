import KernelCheck.Syntax.Function

/-!
# Building modules directly

A `Builder` makes syntax trees without a source text.  Each node gets a span of
its own: a span of one byte, two bytes after the one before, so that no two
nodes share or touch a byte and a problem can be traced to the node it is about.

A node takes its span after its children have taken theirs; every compound
construction below says in which order its children are built.
-/

namespace KernelCheck

/-- What a builder remembers: the next free offset, and the names used so far. -/
structure Builder where
  nextOffset : Nat
  names : Interner

/-- A construction step. -/
abbrev Build (α : Type) := StateM Builder α

namespace Builder

/-- A builder that has built nothing, over a table of names. -/
def start (names : Interner) : Builder := ⟨0, names⟩

/-- A span that no other node of this builder has. -/
def freshSpan : Build Span :=
  modifyGet fun b => (⟨b.nextOffset, b.nextOffset + 1⟩, { b with nextOffset := b.nextOffset + 2 })

/-- The name of a text. -/
def name (s : String) : Build Name :=
  modifyGet fun b =>
    let (n, names) := b.names.intern s
    (n, { b with names })

/-- A node that lacks only its span. -/
def node {α : Type} (make : Span → α) : Build α := make <$> freshSpan

/-! ## Markers -/

/-- A marker of a given kind. -/
def marker (kind : MarkerKind) : Build Marker := node (Marker.mk kind)

/-- The marker with a given word. -/
def markerNamed (word : String) : Build Marker := do
  let kind ← modifyGet fun b =>
    let (kind, names) := MarkerKind.ofText word b.names
    (kind, { b with names })
  marker kind

/-! ## Expressions -/

/-- A variable. -/
def ident (s : String) : Build Expr := do
  let n ← name s
  node (Expr.ident n)

/-- An integer literal. -/
def int (value : Int) : Build Expr := node (Expr.int value)

/-- A floating literal, given by its bits. -/
def float (bits : UInt64) : Build Expr := node (Expr.float bits)

/-- A unary operator applied to an operand. -/
def unary (op : UnaryOp) (operand : Expr) : Build Expr := node (Expr.unary op operand)

/-- A binary operator between two operands. -/
def binary (op : BinaryOp) (left right : Expr) : Build Expr := node (Expr.binary op left right)

/-- An assignment. -/
def assign (op : AssignOp) (target value : Expr) : Build Expr :=
  node (Expr.assign op target value)

/-- A subscript. -/
def index (base subscript : Expr) : Build Expr := node (Expr.index base subscript)

/-- A call of a named function; the callee is built first. -/
def call (callee : String) (args : List Expr) : Build Expr := do
  let f ← ident callee
  node (Expr.call f args)

/-- The member of a base, by `.` or by `->`. -/
def member (base : Expr) (field : String) (arrow : Bool) : Build Expr := do
  let field ← name field
  node (Expr.member base field arrow)

/-- Expressions joined by commas. -/
def comma (parts : List Expr) : Build Expr := node (Expr.comma parts)

/-- The comparison `var < bound`. -/
def lt (var : String) (bound : Expr) : Build Expr := do
  let x ← ident var
  binary .lt x bound

/-- The step `++var`. -/
def preInc (var : String) : Build Expr := do
  let x ← ident var
  unary .preInc x

/-! ## Declarations -/

/-- A declared name. -/
def declarator (s : String) (dims : List Expr) (init : Option Expr) : Build Declarator := do
  let n ← name s
  node (Declarator.mk n dims init)

/-- A declaration of several names. -/
def declaration (type : CType) (declarators : List Declarator) (markers : List Marker) :
    Build Declaration :=
  node (Declaration.mk type declarators markers)

/-- A declaration as a statement, which has a span of its own. -/
def declStmt (d : Declaration) : Build Stmt := node (Stmt.decl d)

/-- The declaration of one variable. -/
def var (type : CType) (s : String) (init : Option Expr) : Build Stmt := do
  let d ← declarator s [] init
  declStmt (← declaration type [d] [])

/-- A `@shared` array of floats; the marker is built first. -/
def shared (s : String) (dims : List Expr) : Build Stmt := do
  let m ← marker .shared
  let d ← declarator s dims none
  declStmt (← declaration { base := .float } [d] [m])

/-- An `@exclusive` float; the marker is built first. -/
def exclusive (s : String) : Build Stmt := do
  let m ← marker .exclusive
  let d ← declarator s [] none
  declStmt (← declaration { base := .float } [d] [m])

/-! ## Statements -/

/-- An expression as a statement. -/
def exprStmt (e : Expr) : Build Stmt := node (Stmt.expr e)

/-- A block as a statement: the block takes its span before the statement. -/
def block (stmts : List Stmt) : Build Stmt := do
  let blockSpan ← freshSpan
  node (Stmt.block stmts blockSpan)

/-- A conditional whose branches are blocks, built in source order. -/
def ifStmt (condition : Expr) (thenBranch : List Stmt) (elseBranch : Option (List Stmt)) :
    Build Stmt := do
  let a ← block thenBranch
  match elseBranch with
  | none => node (Stmt.ifThen condition a)
  | some stmts =>
    let b ← block stmts
    node (Stmt.ifElse condition a b)

/-- A loop that tests before its body, which is a block. -/
def whileLoop (condition : Expr) (body : List Stmt) : Build Stmt := do
  let b ← block body
  node (Stmt.whileLoop condition b)

/-- A loop that tests after its body, which is a block. -/
def doWhile (body : List Stmt) (condition : Expr) : Build Stmt := do
  let b ← block body
  node (Stmt.doWhile b condition)

/-- A switch over a block. -/
def switch (scrutinee : Expr) (body : List Stmt) : Build Stmt := do
  let b ← block body
  node (Stmt.switch scrutinee b)

/-- A case label, or the default label. -/
def caseLabel (value : Option Expr) : Build Stmt := node (Stmt.caseLabel value)

/-- A `break`. -/
def breakJump : Build Stmt := node Stmt.breakJump

/-- A `continue`. -/
def continueJump : Build Stmt := node Stmt.continueJump

/-- A `return`, with or without a value. -/
def returnJump (value : Option Expr) : Build Stmt := node (Stmt.returnJump value)

/-- An empty statement. -/
def empty : Build Stmt := node Stmt.empty

/-- A `for` loop over a block: the body is built before the header takes its
span, and the statement comes last. -/
def forLoop (init : Option ForInit) (test update : Option Expr) (markers : List Marker)
    (body : List Stmt) : Build Stmt := do
  let b ← block body
  let header ← node (LoopHeader.mk init test update markers)
  node (Stmt.forLoop header b)

/-- The init clause `int var = 0`. -/
def induction (var : String) : Build ForInit := do
  let zero ← int 0
  let d ← declarator var [] (some zero)
  return .decl (← declaration { base := .int } [d] [])

/-- The loop `for (int var = 0; var < bound; ++var)`, whose clauses are built in
source order. -/
def canonicalFor (var : String) (bound : Expr) (markers : List Marker) (body : List Stmt) :
    Build Stmt := do
  let init ← induction var
  let test ← lt var bound
  let update ← preInc var
  forLoop (some init) (some test) (some update) markers body

/-- A canonical loop up to an integer, with the markers of the given kinds; the
bound is built before the markers. -/
def markedFor (kinds : List MarkerKind) (var : String) (bound : Int) (body : List Stmt) :
    Build Stmt := do
  let limit ← int bound
  let markers ← kinds.mapM marker
  canonicalFor var limit markers body

/-- A canonical `@outer` loop. -/
def outer (var : String) (bound : Int) (body : List Stmt) : Build Stmt :=
  markedFor [.outer] var bound body

/-- A canonical `@inner` loop. -/
def inner (var : String) (bound : Int) (body : List Stmt) : Build Stmt :=
  markedFor [.inner] var bound body

/-- A canonical loop without markers. -/
def plainFor (var : String) (bound : Int) (body : List Stmt) : Build Stmt :=
  markedFor [] var bound body

/-! ## Functions -/

/-- A function that returns nothing: its body takes its span before it does. -/
def function (s : String) (markers : List Marker) (body : List Stmt) : Build Function := do
  let n ← name s
  let blockSpan ← freshSpan
  node (Function.mk n [] { base := .void } ⟨body, blockSpan⟩ markers)

/-- A kernel; the marker is built first. -/
def kernel (s : String) (body : List Stmt) : Build Function := do
  let m ← marker .kernel
  function s [m] body

/-- A parameter. -/
def param (type : CType) (s : String) : Build Param := do
  let n ← name s
  node (Param.mk n type)

end Builder

end KernelCheck
