import KernelCheck.Json.Basic
import KernelCheck.Json.Token

/-!
# Reading JSON

The tokens of a text are put together by an automaton with a stack of the
arrays and objects that are still open, so that no depth of nesting is too much
for it.

* `Json.parse?` is the value of a text that follows RFC 8259, and nothing for
  any other text: there are no comments, no trailing commas and no second value.
-/

namespace KernelCheck

/-- An array or object that is still open.  What is already in it is kept in
reverse. -/
inductive OpenValue where
  | array (items : List Json)
  /-- An object whose next value belongs to `key`. -/
  | object (members : List (Option String × Json)) (key : Option String)

/-- What may come next. -/
inductive Expected where
  | value
  /-- The first item of an array, or its end. -/
  | itemOrEnd
  /-- The first key of an object, or its end. -/
  | keyOrEnd
  /-- A further key, after these members. -/
  | key (members : List (Option String × Json))
  | colon (members : List (Option String × Json)) (key : Option String)
  /-- What may follow a whole value inside the innermost open one. -/
  | after (v : Json)

/-- The automaton: the open values, innermost first, and what may come next. -/
structure JsonReader where
  pending : List OpenValue
  expected : Expected

namespace JsonReader

/-- A text is one value. -/
def start : JsonReader := ⟨[], .value⟩

/-- A token at a place where a value is due. -/
def beginValue (stack : List OpenValue) : Token → Option JsonReader
  | .null => some ⟨stack, .after .null⟩
  | .bool b => some ⟨stack, .after (.bool b)⟩
  | .number literal => some ⟨stack, .after (.number literal)⟩
  | .string text => some ⟨stack, .after (.string text)⟩
  | .leftBracket => some ⟨.array [] :: stack, .itemOrEnd⟩
  | .leftBrace => some ⟨stack, .keyOrEnd⟩
  | .rightBracket | .rightBrace | .comma | .colon => none

/-- A token after a whole value. -/
def endValue (stack : List OpenValue) (v : Json) (t : Token) : Option JsonReader :=
  match stack, t with
  | .array items :: rest, .comma => some ⟨.array (v :: items) :: rest, .value⟩
  | .array items :: rest, .rightBracket => some ⟨rest, .after (.array (v :: items).reverse)⟩
  | .object members key :: rest, .comma => some ⟨rest, .key ((key, v) :: members)⟩
  | .object members key :: rest, .rightBrace =>
    some ⟨rest, .after (.object ((key, v) :: members).reverse)⟩
  | _, _ => none

/-- One token. -/
def step (r : JsonReader) (t : Token) : Option JsonReader :=
  match r.expected, t with
  | .value, t => beginValue r.pending t
  | .itemOrEnd, .rightBracket => some ⟨r.pending.tail, .after (.array [])⟩
  | .itemOrEnd, t => beginValue r.pending t
  | .keyOrEnd, .rightBrace => some { r with expected := .after (.object []) }
  | .keyOrEnd, .string key => some { r with expected := .colon [] key }
  | .key members, .string key => some { r with expected := .colon members key }
  | .colon members key, .colon => some ⟨.object members key :: r.pending, .value⟩
  | .after v, t => endValue r.pending v t
  | _, _ => none

/-- The value that has been read, if nothing is open any more. -/
def finish? (r : JsonReader) : Option Json :=
  match r.pending, r.expected with
  | [], .after v => some v
  | _, _ => none

end JsonReader

namespace Json

/-- The value that a row of tokens is. -/
def ofTokens? (tokens : List Token) : Option Json :=
  (tokens.foldlM JsonReader.step JsonReader.start).bind JsonReader.finish?

/-- The value of a text. -/
def parse? (s : String) : Option Json :=
  (Token.scan? s.toList).bind ofTokens?

end Json

end KernelCheck
