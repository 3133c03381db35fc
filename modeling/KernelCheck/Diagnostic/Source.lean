import KernelCheck.Span

/-!
# Lines and columns

Offsets count bytes of UTF-8, people count lines and characters.  A `Source`
keeps the offset at which each line starts, next to the text, and answers in
lines and columns that both start at one.  All of these are numbers of 32 bits;
what does not fit stays at the largest of them.

* `SourceText.search` looks for an offset among the line starts by halving.
* `Source.lineOf` is the line that an offset lies in, by this search.
* `Source.position` counts characters from the start of that line.  Offsets past
  the end are taken as the end; an offset inside a character has column one.
* `Source.lineText?` is a line without its line end and without carriage returns
  in front of it.
-/

namespace KernelCheck

namespace SourceText

/-- Number of bytes of a text. -/
def byteLength (cs : List Char) : Nat := cs.foldr (fun c n => c.utf8Size + n) 0

/-- What is left after a number of bytes, unless they end inside a character or
past the text. -/
def dropBytes? : Nat → List Char → Option (List Char)
  | 0, cs => some cs
  | _ + 1, [] => none
  | n + 1, c :: rest => if c.utf8Size ≤ n + 1 then dropBytes? (n + 1 - c.utf8Size) rest else none

/-- The first characters that make up a number of bytes, unless these end inside
a character or past the text. -/
def takeBytes? : Nat → List Char → Option (List Char)
  | 0, _ => some []
  | _ + 1, [] => none
  | n + 1, c :: rest =>
    if c.utf8Size ≤ n + 1 then (takeBytes? (n + 1 - c.utf8Size) rest).map (c :: ·) else none

/-- The characters between two offsets, unless one of them is inside a character
or past the text. -/
def slice? (cs : List Char) (start stop : Nat) : Option (List Char) :=
  (dropBytes? start cs).bind (takeBytes? (stop - start))

/-- The offsets behind each line feed of a text that starts at `offset`. -/
def startsAfter (offset : Nat) : List Char → List Nat
  | [] => []
  | c :: rest =>
    let next := offset + c.utf8Size
    if c == '\n' then next :: startsAfter next rest else startsAfter next rest

/-- The offset at which each line of a text starts: zero, and behind each line feed. -/
def lineStarts (cs : List Char) : List Nat :=
  0 :: (startsAfter 0 cs).map (min (Span.limit - 1))

/-- What a search in an ascending list comes to: the index of what was sought, or else the index
at which it could be put in. -/
inductive Found where
  | at (index : Nat)
  | before (index : Nat)

/-- Searches the starts from index `low` up to but not including `high`.  The one in the middle
says in which half to go on. -/
def search (starts : List Nat) (offset low high : Nat) : Found :=
  if low < high then
    let middle := (low + high) / 2
    let start := starts.getD middle 0
    if start = offset then .at middle
    else if start < offset then search starts offset (middle + 1) high
    else search starts offset low middle
  else .before low
termination_by high - low

/-- The index of the line that holds an offset: an offset between two starts belongs to the
first of them. -/
def Found.lineIndex : Found → Nat
  | .at index => index
  | .before index => index - 1

/-- The number, counted from one, of what has this index. -/
def ordinal (index : Nat) : Nat := min index (Span.limit - 2) + 1

/-- The characters that end a line. -/
def isLineEnd (c : Char) : Bool := c == '\n' || c == '\r'

/-- A text without the line ends behind it. -/
def trimLineEnds (cs : List Char) : List Char := (cs.reverse.dropWhile isLineEnd).reverse

end SourceText

/-- A kernel source: where it comes from, its characters, and the offset at which
each line starts. -/
structure Source where
  path : String
  chars : List Char
  lineStarts : List Nat

namespace Source

/-- The source with a given text. -/
def ofText (path text : String) : Source :=
  { path, chars := text.toList, lineStarts := SourceText.lineStarts text.toList }

/-- Number of bytes. -/
def byteLength (s : Source) : Nat := SourceText.byteLength s.chars

/-- Number of lines; a text that ends in a line feed has an empty last line. -/
def lineCount (s : Source) : Nat := s.lineStarts.length

/-- The line that an offset lies in. -/
def lineOf (s : Source) (offset : Nat) : Nat :=
  SourceText.ordinal (SourceText.search s.lineStarts offset 0 s.lineStarts.length).lineIndex

/-- The offset at which a line starts, if there is such a line. -/
def lineStart? (s : Source) (line : Nat) : Option Nat :=
  if line = 0 then none else s.lineStarts[line - 1]?

/-- The line and column of an offset. -/
def position (s : Source) (offset : Nat) : Nat × Nat :=
  let line := s.lineOf offset
  let start := (s.lineStart? line).getD 0
  let before := (SourceText.slice? s.chars start (min offset s.byteLength)).getD []
  (line, SourceText.ordinal before.length)

/-- The text of a line, if there is such a line. -/
def lineText? (s : Source) (line : Nat) : Option (List Char) := do
  let start ← s.lineStart? line
  let stop := (s.lineStart? (line + 1)).getD s.byteLength
  let text ← SourceText.slice? s.chars start stop
  return SourceText.trimLineEnds text

/-- The line and column at which a span starts. -/
def spanStart (s : Source) (span : Span) : Nat × Nat := s.position span.start

/-- The text of the line in which a span starts. -/
def spanLine? (s : Source) (span : Span) : Option (List Char) :=
  s.lineText? (s.spanStart span).1

end Source

end KernelCheck
