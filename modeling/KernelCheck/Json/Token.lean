import KernelCheck.Json.Number

/-!
# JSON tokens

A JSON text is cut into tokens by an automaton that reads one character at a
time.  Words and numbers extend as far as their characters go; white space
separates tokens and is dropped.

* `Token.scan?` yields the tokens of a text, or nothing if some character
  belongs to no token.
-/

namespace KernelCheck

/-- The smallest parts of a JSON text that mean something. -/
inductive Token where
  | leftBracket | rightBracket | leftBrace | rightBrace | comma | colon
  | null
  | bool (b : Bool)
  | number (literal : NumberLiteral)
  /-- A string with its text, or `none` if it denotes no text. -/
  | string (text : Option String)
  deriving DecidableEq

/-- What a string is made of as it is written: a character, or the sixteen-bit
unit that a `\u` escape gives. -/
inductive StringPiece where
  | char (c : Char)
  | unit (n : Nat)
  deriving DecidableEq

namespace StringPiece

/-- Units that only start a pair. -/
def isHigh (n : Nat) : Bool := 0xd800 ≤ n && n < 0xdc00

/-- Units that only end a pair. -/
def isLow (n : Nat) : Bool := 0xdc00 ≤ n && n < 0xe000

/-- The character that two halves of a pair denote together. -/
def pair (high low : Nat) : Char :=
  Char.ofNat (0x10000 + (high - 0xd800) * 0x400 + (low - 0xdc00))

/-- The characters that the pieces denote.  Half of a pair without the other
half denotes nothing. -/
def chars? : List StringPiece → Option (List Char)
  | [] => some []
  | char c :: rest => (chars? rest).map (c :: ·)
  | unit n :: rest =>
    if isHigh n then
      match rest with
      | unit m :: rest => if isLow m then (chars? rest).map (pair n m :: ·) else none
      | _ => none
    else if isLow n then none
    else (chars? rest).map (Char.ofNat n :: ·)

/-- The text that the pieces denote. -/
def text? (pieces : List StringPiece) : Option String :=
  (chars? pieces).map String.ofList

/-- The character that a one-letter escape stands for. -/
def escape? : Char → Option Char
  | '"' => some '"'
  | '\\' => some '\\'
  | '/' => some '/'
  | 'b' => some '\x08'
  | 'f' => some '\x0c'
  | 'n' => some '\n'
  | 'r' => some '\r'
  | 't' => some '\t'
  | _ => none

end StringPiece

/-- Where the automaton is.  What it has read of a token is kept in reverse. -/
inductive ScanMode where
  /-- Between two tokens. -/
  | blank
  | word (letters : List Char)
  | number (chars : List Char)
  /-- Inside a string. -/
  | text (pieces : List StringPiece)
  /-- After a backslash. -/
  | escape (pieces : List StringPiece)
  /-- Inside a `\u` escape: the number of digits to come and the value of those
  that have come. -/
  | unit (pieces : List StringPiece) (remaining value : Nat)

/-- The automaton: where it is, and the tokens before, in reverse. -/
structure Scanner where
  tokens : List Token
  mode : ScanMode

namespace Scanner

/-- Nothing read. -/
def start : Scanner := ⟨[], .blank⟩

/-- The four characters that may separate tokens. -/
def isBlank (c : Char) : Bool := c == ' ' || c == '\t' || c == '\n' || c == '\r'

/-- Characters of the three words. -/
def isLetter (c : Char) : Bool := c.isLower

/-- Characters that a number can consist of. -/
def isNumeric (c : Char) : Bool :=
  c.isDigit || c == '-' || c == '+' || c == '.' || c == 'e' || c == 'E'

/-- The value of a hexadecimal digit in either case. -/
def hexValue? (c : Char) : Option Nat :=
  if c.isDigit then some (c.toNat - '0'.toNat)
  else if 'a' ≤ c && c ≤ 'f' then some (c.toNat - 'a'.toNat + 10)
  else if 'A' ≤ c && c ≤ 'F' then some (c.toNat - 'A'.toNat + 10)
  else none

/-- The token that a word is. -/
def word? : List Char → Option Token
  | ['n', 'u', 'l', 'l'] => some .null
  | ['t', 'r', 'u', 'e'] => some (.bool true)
  | ['f', 'a', 'l', 's', 'e'] => some (.bool false)
  | _ => none

/-- The tokens once a word or number has come to its end; a string that is open
has not. -/
def flush? (s : Scanner) : Option (List Token) :=
  match s.mode with
  | .blank => some s.tokens
  | .word letters => (word? letters.reverse).map (· :: s.tokens)
  | .number chars => (NumberLiteral.ofChars? chars.reverse).map (.number · :: s.tokens)
  | .text _ | .escape _ | .unit .. => none

/-- A character between two tokens: a token by itself, the start of a longer
one, or a blank. -/
def startToken (tokens : List Token) (c : Char) : Option Scanner :=
  match c with
  | '[' => some ⟨.leftBracket :: tokens, .blank⟩
  | ']' => some ⟨.rightBracket :: tokens, .blank⟩
  | '{' => some ⟨.leftBrace :: tokens, .blank⟩
  | '}' => some ⟨.rightBrace :: tokens, .blank⟩
  | ',' => some ⟨.comma :: tokens, .blank⟩
  | ':' => some ⟨.colon :: tokens, .blank⟩
  | '"' => some ⟨tokens, .text []⟩
  | c =>
    if isBlank c then some ⟨tokens, .blank⟩
    else if c.isDigit || c == '-' then some ⟨tokens, .number [c]⟩
    else if isLetter c then some ⟨tokens, .word [c]⟩
    else none

/-- A character after a whole token or a token that may end here. -/
def resume (s : Scanner) (c : Char) : Option Scanner :=
  s.flush?.bind fun tokens => startToken tokens c

/-- One character.  A control character may not stand in a string. -/
def step (s : Scanner) (c : Char) : Option Scanner :=
  match s.mode with
  | .blank => s.resume c
  | .word letters => if isLetter c then some { s with mode := .word (c :: letters) } else s.resume c
  | .number chars =>
    if isNumeric c then some { s with mode := .number (c :: chars) } else s.resume c
  | .text pieces =>
    if c == '"' then some ⟨.string (StringPiece.text? pieces.reverse) :: s.tokens, .blank⟩
    else if c == '\\' then some { s with mode := .escape pieces }
    else if c.toNat < 0x20 then none
    else some { s with mode := .text (.char c :: pieces) }
  | .escape pieces =>
    if c == 'u' then some { s with mode := .unit pieces 4 0 }
    else (StringPiece.escape? c).map fun d => { s with mode := .text (.char d :: pieces) }
  | .unit pieces remaining value =>
    (hexValue? c).map fun digit =>
      let value := 16 * value + digit
      if remaining ≤ 1 then { s with mode := .text (.unit value :: pieces) }
      else { s with mode := .unit pieces (remaining - 1) value }

end Scanner

/-- The tokens of a text. -/
def Token.scan? (cs : List Char) : Option (List Token) :=
  ((cs.foldlM Scanner.step Scanner.start).bind Scanner.flush?).map List.reverse

end KernelCheck
