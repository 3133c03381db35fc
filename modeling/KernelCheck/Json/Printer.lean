import KernelCheck.Json.Basic

/-!
# Writing JSON

The indented written form of a value: two blanks for each level, one member or
item a line, one blank after a colon, and nothing between the brackets of an
empty array or object.  Strings escape what RFC 8259 does not allow in them and
keep every other character as it is.
-/

namespace KernelCheck

namespace Json

/-- A lower-case hexadecimal digit. -/
def hexDigit (n : Nat) : Char :=
  Char.ofNat (if n < 10 then '0'.toNat + n else 'a'.toNat + (n - 10))

/-- A character inside a string.  Control characters take their one-letter
escape if they have one, and a numeric one otherwise. -/
def escapeChar (c : Char) : List Char :=
  match c with
  | '"' => ['\\', '"']
  | '\\' => ['\\', '\\']
  | '\x08' => ['\\', 'b']
  | '\x0c' => ['\\', 'f']
  | '\n' => ['\\', 'n']
  | '\r' => ['\\', 'r']
  | '\t' => ['\\', 't']
  | c =>
    if c.toNat < 0x20 then
      ['\\', 'u', '0', '0', hexDigit (c.toNat / 16), hexDigit (c.toNat % 16)]
    else [c]

/-- A string between quotes.  One that denotes no text is written as half of a
surrogate pair. -/
def quote (text : Option String) : List Char :=
  '"' :: (match text with
    | some s => s.toList.flatMap escapeChar
    | none => ['\\', 'u', 'd', '8', '0', '0']) ++ ['"']

/-- A line end and the indentation of a level. -/
def newline (level : Nat) : List Char := '\n' :: List.replicate (2 * level) ' '

mutual

/-- The written form of a value that starts at a level of indentation. -/
def prettyChars (level : Nat) : Json → List Char
  | null => ['n', 'u', 'l', 'l']
  | bool true => ['t', 'r', 'u', 'e']
  | bool false => ['f', 'a', 'l', 's', 'e']
  | number literal => literal.chars
  | string text => quote text
  | array [] => ['[', ']']
  | array (v :: rest) =>
    '[' :: newline (level + 1) ++ prettyChars (level + 1) v ++ prettyItems (level + 1) rest ++
      newline level ++ [']']
  | object [] => ['{', '}']
  | object ((key, v) :: rest) =>
    '{' :: newline (level + 1) ++ quote key ++ ':' :: ' ' :: prettyChars (level + 1) v ++
      prettyMembers (level + 1) rest ++ newline level ++ ['}']

/-- Further items, each after a comma and on a line of its own. -/
def prettyItems (level : Nat) : List Json → List Char
  | [] => []
  | v :: rest => ',' :: newline level ++ prettyChars level v ++ prettyItems level rest

/-- Further members, each after a comma and on a line of its own. -/
def prettyMembers (level : Nat) : List (Option String × Json) → List Char
  | [] => []
  | (key, v) :: rest =>
    ',' :: newline level ++ quote key ++ ':' :: ' ' :: prettyChars level v ++
      prettyMembers level rest

end

/-- The written form of a value. -/
def pretty (v : Json) : String := String.ofList (prettyChars 0 v)

end Json

end KernelCheck
