import KernelCheck.Document.Record

/-!
# Decoding serialized modules

The schema of a serialized module: how a JSON value becomes a `Document`.  Every
node is a record; a statement or an expression names its kind in the member
`kind`, and the other members depend on it.

Nesting is limited.  A statement of a function body stands five levels below
the whole module, and together with everything in it it has to fit into what is
left of `nestingLimit`, whether the schema looks at it or not.  Below the body
of a function the limit bounds the recursion; members of the other nodes that
the schema does not know are never looked into.

* `Document.ofJson?` is the document that a value is, if it is one.
-/

namespace KernelCheck

/-- Arrays and objects may be nested this deep. -/
def nestingLimit : Nat := 127

namespace MarkerNode

/-- A marker. -/
def ofJson? (v : Json) : Option MarkerNode := do
  let r ← Record.ofJson? ["name", "span"] v
  return ⟨← r.required "name" Json.text?, ← r.offsets⟩

/-- The markers of a record, which may be left out. -/
def ofRecord? (r : Record) : Option (List MarkerNode) :=
  r.withDefault "attrs" [] (Json.list? ofJson?)

end MarkerNode

/-- A type.  There are at most 255 pointer levels. -/
def TypeNode.ofJson? (v : Json) : Option TypeNode := do
  let r ← Record.ofJson? ["base", "unsigned", "const", "pointer"] v
  return {
    base := ← r.required "base" Json.text?
    isUnsigned := ← r.withDefault "unsigned" false Json.bool?
    isConst := ← r.withDefault "const" false Json.bool?
    pointerDepth := ← r.withDefault "pointer" 0 (Json.nat? 256) }

/-- A parameter. -/
def ParamNode.ofJson? (v : Json) : Option ParamNode := do
  let r ← Record.ofJson? ["name", "type", "span"] v
  return {
    name := ← r.required "name" Json.text?
    type := ← r.required "type" TypeNode.ofJson?
    offsets := ← r.offsets }

namespace ExprNode

/-- The kinds of expressions. -/
def kinds : List String :=
  ["ident", "int", "float", "char", "string", "unary", "binary", "assign", "call", "index",
   "member", "cast", "ternary", "comma", "sizeof_type"]

/-- An expression with at most `depth` levels of expressions. -/
def ofJson? : Nat → Json → Option ExprNode
  | 0, _ => none
  | depth + 1, v => do
    let r ← Record.ofObject? v
    let o ← r.offsets
    let operand (name : String) := r.required name (ofJson? depth)
    match ← r.required "kind" (Json.oneOf? kinds) with
    | "ident" => return .ident (← r.required "name" Json.text?) o
    | "int" =>
      return .int (← r.required "value" (Json.int? (-9223372036854775808) 9223372036854775808)) o
    | "float" => return .float (← r.required "value" Json.floatBits?) o
    | "char" => return .char (← r.required "value" Json.char?) o
    | "string" => return .string (← r.required "value" Json.text?) o
    | "unary" =>
      let op ← r.required "op" fun v => v.symbol?.bind UnaryOp.ofSpelling?
      return .unary op (← operand "operand") o
    | "binary" =>
      let op ← r.required "op" fun v => v.symbol?.bind BinaryOp.ofSpelling?
      return .binary op (← operand "lhs") (← operand "rhs") o
    | "assign" =>
      let op ← r.required "op" fun v => v.symbol?.bind AssignOp.ofSpelling?
      return .assign op (← operand "target") (← operand "value") o
    | "call" =>
      let args ← r.withDefault "args" [] (Json.list? (ofJson? depth))
      return .call (← operand "callee") args o
    | "index" => return .index (← operand "base") (← operand "index") o
    | "member" =>
      let field ← r.required "field" Json.text?
      let arrow ← r.withDefault "arrow" false Json.bool?
      return .member (← operand "base") field arrow o
    | "cast" => return .cast (← r.required "type" TypeNode.ofJson?) (← operand "expr") o
    | "ternary" => return .ternary (← operand "cond") (← operand "then") (← operand "else") o
    | "comma" => return .comma (← r.required "exprs" (Json.list? (ofJson? depth))) o
    | "sizeof_type" => return .sizeOfType (← r.required "type" TypeNode.ofJson?) o
    | _ => none

end ExprNode

/-- One declared name. -/
def DeclaratorNode.ofJson? (depth : Nat) (v : Json) : Option DeclaratorNode := do
  let r ← Record.ofJson? ["name", "dims", "init", "span"] v
  return {
    name := ← r.required "name" Json.text?
    dims := ← r.withDefault "dims" [] (Json.list? (ExprNode.ofJson? depth))
    init := ← r.optional "init" (ExprNode.ofJson? depth)
    offsets := ← r.offsets }

/-- The declaration among the members of a statement or clause, with the offsets that
are left to it. -/
def DeclarationNode.ofRecord? (depth : Nat) (offsets : Offsets) (r : Record) :
    Option DeclarationNode := do
  return {
    type := ← r.required "type" TypeNode.ofJson?
    declarators := ← r.required "declarators" (Json.list? (DeclaratorNode.ofJson? depth))
    markers := ← MarkerNode.ofRecord? r
    offsets }

namespace InitNode

/-- The kinds of init clauses. -/
def kinds : List String := ["decl", "expr"]

/-- The fields of each kind of init clause, in the order of the array form. -/
def fields : String → List String
  | "decl" => ["type", "declarators", "attrs", "span"]
  | "expr" => ["expr"]
  | _ => []

/-- The kind of an init clause and its record.  The array form starts with the
kind. -/
def tagged? : Json → Option (String × Record)
  | .array (kind :: items) => do
    let kind ← kind.oneOf? kinds
    return (kind, ← Record.ofItems? (fields kind) items)
  | v => do
    let r ← Record.ofObject? v
    return (← r.required "kind" (Json.oneOf? kinds), r)

/-- An init clause. -/
def ofJson? (depth : Nat) (v : Json) : Option InitNode := do
  match ← tagged? v with
  | ("decl", r) => return .decl (← DeclarationNode.ofRecord? depth (← r.offsets) r)
  | (_, r) => return .expr (← r.required "expr" (ExprNode.ofJson? depth))

end InitNode

namespace StmtNode

/-- The kinds of statements. -/
def kinds : List String :=
  ["expr", "decl", "block", "if", "for", "while", "do_while", "switch", "case", "break",
   "continue", "return", "empty"]

/-- A statement with at most `depth` levels of statements and expressions.  The offsets
among the members of a declaration statement are those of the statement, and none are
left to the declaration. -/
def ofJson? : Nat → Json → Option StmtNode
  | 0, _ => none
  | depth + 1, v => do
    let r ← Record.ofObject? v
    let o ← r.offsets
    let expr (name : String) := r.required name (ExprNode.ofJson? depth)
    let stmt (name : String) := r.required name (ofJson? depth)
    match ← r.required "kind" (Json.oneOf? kinds) with
    | "expr" => return .expr (← expr "expr") o
    | "decl" => return .decl (← DeclarationNode.ofRecord? depth .default r) o
    | "block" => return .block (← r.withDefault "stmts" [] (Json.list? (ofJson? depth))) o
    | "if" =>
      let condition ← expr "cond"
      let thenBranch ← stmt "then"
      match ← r.optional "else" (ofJson? depth) with
      | none => return .ifThen condition thenBranch o
      | some elseBranch => return .ifElse condition thenBranch elseBranch o
    | "for" =>
      let init ← r.optional "init" (InitNode.ofJson? depth)
      let test ← r.optional "test" (ExprNode.ofJson? depth)
      let update ← r.optional "update" (ExprNode.ofJson? depth)
      return .forLoop init test update (← stmt "body") (← MarkerNode.ofRecord? r) o
    | "while" => return .whileLoop (← expr "cond") (← stmt "body") o
    | "do_while" => return .doWhile (← stmt "body") (← expr "cond") o
    | "switch" => return .switch (← expr "scrutinee") (← stmt "body") o
    | "case" => return .caseLabel (← r.optional "value" (ExprNode.ofJson? depth)) o
    | "break" => return .breakJump o
    | "continue" => return .continueJump o
    | "return" => return .returnJump (← r.optional "value" (ExprNode.ofJson? depth)) o
    | "empty" => return .empty o
    | _ => none

/-- A statement of a function body, which has to fit as a whole. -/
def ofBodyItem? (v : Json) : Option StmtNode :=
  if v.fits (nestingLimit - 5) then ofJson? (nestingLimit - 5) v else none

end StmtNode

/-- The body of a function. -/
def BlockNode.ofJson? (v : Json) : Option BlockNode := do
  let r ← Record.ofJson? ["stmts", "span"] v
  return {
    stmts := ← r.withDefault "stmts" [] (Json.list? StmtNode.ofBodyItem?)
    offsets := ← r.offsets }

/-- A function. -/
def FunctionNode.ofJson? (v : Json) : Option FunctionNode := do
  let r ← Record.ofJson? ["name", "attrs", "params", "return_type", "body", "span"] v
  return {
    name := ← r.required "name" Json.text?
    markers := ← MarkerNode.ofRecord? r
    params := ← r.withDefault "params" [] (Json.list? ParamNode.ofJson?)
    returns := ← r.optional "return_type" TypeNode.ofJson?
    body := ← r.required "body" BlockNode.ofJson?
    offsets := ← r.offsets }

/-- A module. -/
def Document.ofJson? (v : Json) : Option Document := do
  let r ← Record.ofJson? ["functions"] v
  return { functions := ← r.withDefault "functions" [] (Json.list? FunctionNode.ofJson?) }

end KernelCheck
