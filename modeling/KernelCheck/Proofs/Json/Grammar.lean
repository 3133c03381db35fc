import KernelCheck.Json.Reader
import Mathlib.Data.List.Forall2

/-!
# The texts of JSON values

RFC 8259 says which texts a JSON value has, and it says so without a reader: a text is a row of
tokens, and blanks may stand around each of them.

1. `Token.Lexeme` — how a token may be written.  Only numbers and strings leave a choice.
2. `Json.tokens` — the tokens of a value: commas between the items of an array and the members
   of an object, a colon behind each key.
3. `Json.IsTextOf` — both together.
-/

namespace KernelCheck

/-! ## Numbers -/

/-- One decimal digit or more. -/
def IsDigits (cs : List Char) : Prop := cs ≠ [] ∧ ∀ c ∈ cs, c.isDigit = true

/-- The digits of a fraction as it may be written. -/
inductive FractionText : List Char → List Char → Prop
  | none : FractionText [] []
  | point {digits : List Char} (h : IsDigits digits) : FractionText digits ('.' :: digits)

/-- An exponent as it may be written, with an `e` of either case. -/
inductive ExponentText : Option (Bool × List Char) → List Char → Prop
  | none : ExponentText none []
  | unsigned {e : Char} {digits : List Char} (he : e = 'e' ∨ e = 'E') (h : IsDigits digits) :
      ExponentText (some (false, digits)) (e :: digits)
  | plus {e : Char} {digits : List Char} (he : e = 'e' ∨ e = 'E') (h : IsDigits digits) :
      ExponentText (some (false, digits)) (e :: '+' :: digits)
  | minus {e : Char} {digits : List Char} (he : e = 'e' ∨ e = 'E') (h : IsDigits digits) :
      ExponentText (some (true, digits)) (e :: '-' :: digits)

/-- A number as it may be written.  Digits before the point start with a zero only if it is
the only one. -/
inductive NumberText : NumberLiteral → List Char → Prop
  | intro {n : NumberLiteral} {fraction exponent : List Char} (whole : IsDigits n.whole)
      (leading : n.whole.head? = some '0' → n.whole = ['0'])
      (hfraction : FractionText n.fraction fraction)
      (hexponent : ExponentText n.exponent exponent) :
      NumberText n ((if n.negative then ['-'] else []) ++ (n.whole ++ (fraction ++ exponent)))

/-! ## Strings -/

/-- The hexadecimal digit of a value, in either case. -/
def IsHexDigit (c : Char) (n : Nat) : Prop :=
  "0123456789abcdef".toList[n]? = some c ∨ "0123456789ABCDEF".toList[n]? = some c

/-- The letters of the short escapes, and the characters that they stand for. -/
def shortEscapes : List (Char × Char) :=
  [('"', '"'), ('\\', '\\'), ('/', '/'), ('b', '\x08'), ('f', '\x0c'), ('n', '\n'), ('r', '\r'),
   ('t', '\t')]

/-- A piece of a string as it may be written: the character itself unless it has to be escaped,
a short escape, or the four digits of a unit. -/
inductive PieceText : StringPiece → List Char → Prop
  | plain {c : Char} (printable : 0x20 ≤ c.toNat) (hquote : c ≠ '"') (hbackslash : c ≠ '\\') :
      PieceText (.char c) [c]
  | escape {letter c : Char} (h : (letter, c) ∈ shortEscapes) : PieceText (.char c) ['\\', letter]
  | unit {a b c d : Char} {k l m n : Nat} (ha : IsHexDigit a k) (hb : IsHexDigit b l)
      (hc : IsHexDigit c m) (hd : IsHexDigit d n) :
      PieceText (.unit (16 * (16 * (16 * k + l) + m) + n)) ['\\', 'u', a, b, c, d]

namespace Token

/-! ## Tokens -/

/-- A token as it may be written. -/
inductive Lexeme : Token → List Char → Prop
  | leftBracket : Lexeme .leftBracket ['[']
  | rightBracket : Lexeme .rightBracket [']']
  | leftBrace : Lexeme .leftBrace ['{']
  | rightBrace : Lexeme .rightBrace ['}']
  | comma : Lexeme .comma [',']
  | colon : Lexeme .colon [':']
  | null : Lexeme .null ['n', 'u', 'l', 'l']
  | yes : Lexeme (.bool true) ['t', 'r', 'u', 'e']
  | no : Lexeme (.bool false) ['f', 'a', 'l', 's', 'e']
  | number {n : NumberLiteral} {cs : List Char} (h : NumberText n cs) : Lexeme (.number n) cs
  | string {pieces : List StringPiece} {parts : List (List Char)}
      (h : List.Forall₂ PieceText pieces parts) :
      Lexeme (.string (StringPiece.text? pieces)) ('"' :: (parts.flatten ++ ['"']))

/-- Characters that may stand around tokens, and nothing else. -/
def AreBlank (cs : List Char) : Prop := ∀ c ∈ cs, c ∈ [' ', '\t', '\n', '\r']

/-- Tokens one after the other, with blanks around them. -/
inductive Spelled : List Token → List Char → Prop
  | nil {blanks : List Char} (h : AreBlank blanks) : Spelled [] blanks
  | cons {blanks lexeme cs : List Char} {t : Token} {ts : List Token} (h : AreBlank blanks)
      (hlexeme : Lexeme t lexeme) (hrest : Spelled ts cs) :
      Spelled (t :: ts) (blanks ++ (lexeme ++ cs))

end Token

namespace Json

/-! ## Values -/

mutual

/-- The tokens of a value. -/
def tokens : Json → List Token
  | null => [.null]
  | bool b => [.bool b]
  | number literal => [.number literal]
  | string text => [.string text]
  | array [] => [.leftBracket, .rightBracket]
  | array (v :: rest) => .leftBracket :: (v.tokens ++ (itemTokens rest ++ [.rightBracket]))
  | object [] => [.leftBrace, .rightBrace]
  | object ((key, v) :: rest) =>
    .leftBrace :: .string key :: .colon :: (v.tokens ++ (memberTokens rest ++ [.rightBrace]))

/-- The tokens of further items. -/
def itemTokens : List Json → List Token
  | [] => []
  | v :: rest => .comma :: (v.tokens ++ itemTokens rest)

/-- The tokens of further members. -/
def memberTokens : List (Option String × Json) → List Token
  | [] => []
  | (key, v) :: rest => .comma :: .string key :: .colon :: (v.tokens ++ memberTokens rest)

end

/-- The characters are a text of the value. -/
def IsTextOf (cs : List Char) (v : Json) : Prop := Token.Spelled v.tokens cs

end Json

end KernelCheck
