/-!
# Operators

The unary, binary and assignment operators of C expressions.  Each kind has
`all`, the list of its members, and `spelling`, the text that stands for it in a
serialized module.  A spelling names one operator only, so `ofSpelling?` reads
back what `spelling` writes.

Stepping operators look alike before and after their operand, which is why
`UnaryOp.symbol` and `UnaryOp.spelling` differ for them.
-/

namespace KernelCheck

/-- Operators with one operand. -/
inductive UnaryOp where
  | neg | plus | not | bitNot | deref | addrOf
  | preInc | preDec | postInc | postDec | sizeOf
  deriving DecidableEq

namespace UnaryOp

/-- Every unary operator, once. -/
def all : List UnaryOp :=
  [neg, plus, not, bitNot, deref, addrOf, preInc, preDec, postInc, postDec, sizeOf]

/-- The operator as it stands in C source. -/
def symbol : UnaryOp → String
  | neg => "-"
  | plus => "+"
  | not => "!"
  | bitNot => "~"
  | deref => "*"
  | addrOf => "&"
  | preInc | postInc => "++"
  | preDec | postDec => "--"
  | sizeOf => "sizeof"

/-- The operator in a serialized module; a step shows on which side of its
operand `x` it stands. -/
def spelling : UnaryOp → String
  | preInc => "++x"
  | preDec => "--x"
  | postInc => "x++"
  | postDec => "x--"
  | op => op.symbol

/-- The operator with a given spelling. -/
def ofSpelling? (s : String) : Option UnaryOp :=
  all.find? fun op => op.spelling == s

/-- Every spelling reads back. -/
theorem ofSpelling?_spelling (op : UnaryOp) : ofSpelling? op.spelling = some op := by
  cases op <;> decide

/-- `++` and `--`, on either side. -/
def isStep : UnaryOp → Bool
  | preInc | preDec | postInc | postDec => true
  | _ => false

end UnaryOp

/-- Operators with two operands that assign nothing. -/
inductive BinaryOp where
  | add | sub | mul | div | mod
  | shl | shr
  | lt | le | gt | ge
  | eq | ne
  | bitAnd | bitOr | bitXor
  | and | or
  deriving DecidableEq

namespace BinaryOp

/-- Every binary operator, once. -/
def all : List BinaryOp :=
  [add, sub, mul, div, mod, shl, shr, lt, le, gt, ge, eq, ne, bitAnd, bitOr, bitXor, and, or]

/-- The operator as it stands in C source. -/
def symbol : BinaryOp → String
  | add => "+"
  | sub => "-"
  | mul => "*"
  | div => "/"
  | mod => "%"
  | shl => "<<"
  | shr => ">>"
  | lt => "<"
  | le => "<="
  | gt => ">"
  | ge => ">="
  | eq => "=="
  | ne => "!="
  | bitAnd => "&"
  | bitOr => "|"
  | bitXor => "^"
  | and => "&&"
  | or => "||"

/-- The operator in a serialized module, which is its symbol. -/
def spelling (op : BinaryOp) : String := op.symbol

/-- The operator with a given spelling. -/
def ofSpelling? (s : String) : Option BinaryOp :=
  all.find? fun op => op.spelling == s

/-- Every spelling reads back. -/
theorem ofSpelling?_spelling (op : BinaryOp) : ofSpelling? op.spelling = some op := by
  cases op <;> decide

/-- The four comparisons by order; equality is not among them. -/
def isRelational : BinaryOp → Bool
  | lt | le | gt | ge => true
  | _ => false

/-- `+` and `-`. -/
def isAdditive : BinaryOp → Bool
  | add | sub => true
  | _ => false

end BinaryOp

/-- `=` and the compound assignments. -/
inductive AssignOp where
  | assign | add | sub | mul | div | mod | shl | shr | bitAnd | bitOr | bitXor
  deriving DecidableEq

namespace AssignOp

/-- Every assignment operator, once. -/
def all : List AssignOp :=
  [assign, add, sub, mul, div, mod, shl, shr, bitAnd, bitOr, bitXor]

/-- The operator as it stands in C source. -/
def symbol : AssignOp → String
  | assign => "="
  | add => "+="
  | sub => "-="
  | mul => "*="
  | div => "/="
  | mod => "%="
  | shl => "<<="
  | shr => ">>="
  | bitAnd => "&="
  | bitOr => "|="
  | bitXor => "^="

/-- The operator in a serialized module, which is its symbol. -/
def spelling (op : AssignOp) : String := op.symbol

/-- The operator with a given spelling. -/
def ofSpelling? (s : String) : Option AssignOp :=
  all.find? fun op => op.spelling == s

/-- Every spelling reads back. -/
theorem ofSpelling?_spelling (op : AssignOp) : ofSpelling? op.spelling = some op := by
  cases op <;> decide

end AssignOp

end KernelCheck
