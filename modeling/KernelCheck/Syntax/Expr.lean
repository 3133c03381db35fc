import KernelCheck.Syntax.CType
import KernelCheck.Syntax.Operator
import KernelCheck.Span

/-!
# Expressions

The expression tree, in which every node carries its span, and the question
that the rules ask about it: which variables does it mention?

* `Expr.occurrences` lists every mention of a variable from left to right.
  Member fields and type names are no variables and never appear in it.
* `Expr.firstOccurrence?` stops at the first mention that satisfies a test.
-/

namespace KernelCheck

/-- A C expression.  A floating literal is kept as the bits of its value. -/
inductive Expr where
  | ident (name : Name) (span : Span)
  | int (value : Int) (span : Span)
  | float (bits : UInt64) (span : Span)
  | char (value : Char) (span : Span)
  | string (text : Name) (span : Span)
  | unary (op : UnaryOp) (operand : Expr) (span : Span)
  | binary (op : BinaryOp) (left right : Expr) (span : Span)
  | assign (op : AssignOp) (target value : Expr) (span : Span)
  | call (callee : Expr) (args : List Expr) (span : Span)
  | index (base subscript : Expr) (span : Span)
  | member (base : Expr) (field : Name) (arrow : Bool) (span : Span)
  | cast (type : CType) (operand : Expr) (span : Span)
  | ternary (condition thenValue elseValue : Expr) (span : Span)
  | comma (parts : List Expr) (span : Span)
  | sizeOfType (type : CType) (span : Span)

namespace Expr

/-- Where the expression stands. -/
def span : Expr → Span
  | ident _ s | int _ s | float _ s | char _ s | string _ s | unary _ _ s | binary _ _ _ s
  | assign _ _ _ s | call _ _ s | index _ _ s | member _ _ _ s | cast _ _ s | ternary _ _ _ s
  | comma _ s | sizeOfType _ s => s

/-- The variable, if the expression is nothing but one. -/
def ident? : Expr → Option Name
  | ident name _ => some name
  | _ => none

mutual

/-- Every mention of a variable with its place, from left to right: a callee
before its arguments, a base before its subscript, a target before its value. -/
def occurrences : Expr → List (Name × Span)
  | ident name s => [(name, s)]
  | int .. | float .. | char .. | string .. | sizeOfType .. => []
  | unary _ e _ | member e _ _ _ | cast _ e _ => e.occurrences
  | binary _ a b _ | assign _ a b _ | index a b _ => a.occurrences ++ b.occurrences
  | call f args _ => f.occurrences ++ occurrencesList args
  | ternary c a b _ => c.occurrences ++ (a.occurrences ++ b.occurrences)
  | comma parts _ => occurrencesList parts

/-- The mentions in several expressions, one after the other. -/
def occurrencesList : List Expr → List (Name × Span)
  | [] => []
  | e :: rest => e.occurrences ++ occurrencesList rest

end

mutual

/-- The first mention, from the left, of a variable that satisfies `p`. -/
def firstOccurrence? (p : Name → Bool) : Expr → Option (Name × Span)
  | ident name s => if p name then some (name, s) else none
  | int .. | float .. | char .. | string .. | sizeOfType .. => none
  | unary _ e _ | member e _ _ _ | cast _ e _ => e.firstOccurrence? p
  | binary _ a b _ | assign _ a b _ | index a b _ =>
    a.firstOccurrence? p <|> b.firstOccurrence? p
  | call f args _ => f.firstOccurrence? p <|> firstOccurrenceList? p args
  | ternary c a b _ => c.firstOccurrence? p <|> a.firstOccurrence? p <|> b.firstOccurrence? p
  | comma parts _ => firstOccurrenceList? p parts

/-- The first such mention in several expressions. -/
def firstOccurrenceList? (p : Name → Bool) : List Expr → Option (Name × Span)
  | [] => none
  | e :: rest => e.firstOccurrence? p <|> firstOccurrenceList? p rest

end

/-- The variable is read or written somewhere in the expression. -/
def mentions (e : Expr) (name : Name) : Bool :=
  (e.firstOccurrence? (· == name)).isSome

/-- The expression has a value without any of the given variables. -/
def avoids (e : Expr) (excluded : List Name) : Bool :=
  (e.firstOccurrence? excluded.contains).isNone

end Expr

end KernelCheck
