import KernelCheck.Name

/-!
# C types

A type matters to the checker only as far as it decides whether a variable is
an integer: the base word, signedness, `const` and the number of pointer
levels.
-/

namespace KernelCheck

/-- The base of a type: a keyword, or the name of a typedef or structure. -/
inductive BaseType where
  | void | bool | char | short | int | long | longLong | float | double
  | named (name : Name)
  deriving DecidableEq

namespace BaseType

/-- The base that a word stands for, if the word is a type keyword.  `bool` has
two spellings. -/
def keyword? : String → Option BaseType
  | "void" => some void
  | "bool" => some bool
  | "_Bool" => some bool
  | "char" => some char
  | "short" => some short
  | "int" => some int
  | "long" => some long
  | "long long" => some longLong
  | "float" => some float
  | "double" => some double
  | _ => none

/-- Keywords of integer types.  `bool` does not count as one. -/
def isIntegerKeyword : BaseType → Bool
  | char | short | int | long | longLong => true
  | _ => false

/-- The base as a word of C source. -/
def text (t : Interner) : BaseType → String
  | void => "void"
  | bool => "bool"
  | char => "char"
  | short => "short"
  | int => "int"
  | long => "long"
  | longLong => "long long"
  | float => "float"
  | double => "double"
  | named name => t.lookup name

end BaseType

/-- A base with its qualifiers and pointer levels. -/
structure CType where
  base : BaseType
  isUnsigned : Bool := false
  isConst : Bool := false
  pointerDepth : Nat := 0
  deriving DecidableEq

namespace CType

/-- Typedef names of the standard headers that stand for integer types. -/
def integerTypedefs : List String :=
  ["size_t", "ssize_t", "ptrdiff_t", "intptr_t", "uintptr_t",
   "int8_t", "int16_t", "int32_t", "int64_t",
   "uint8_t", "uint16_t", "uint32_t", "uint64_t"]

/-- Values of the type are integers: no pointer, and either an integer keyword
or one of the standard typedefs, recognised by its text. -/
def isIntegral (t : Interner) (c : CType) : Bool :=
  c.pointerDepth == 0 &&
    match c.base with
    | .named name => integerTypedefs.contains (t.lookup name)
    | base => base.isIntegerKeyword

/-- The type as C source, with one ` *` for each pointer level. -/
def text (t : Interner) (c : CType) : String :=
  (if c.isConst then "const " else "") ++ (if c.isUnsigned then "unsigned " else "") ++
    c.base.text t ++ String.join (List.replicate c.pointerDepth " *")

end CType

end KernelCheck
