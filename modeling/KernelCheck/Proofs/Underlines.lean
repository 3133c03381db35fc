import KernelCheck.Diagnostic.Terminal
import KernelCheck.Proofs.Lines

/-!
# Underlines

A snippet shows the line in which a span starts and puts marks under the span.  How many
marks there are is bounded in two units: the length of the span counts bytes, and the rest
of the line counts characters.

1. `SourceText.ShownLine` — what is shown of a line, and what is left out behind it.
2. `Source.spanStart_ofText`, `Source.spanLine?_ofText` — where a span in such a line starts,
   and the line that is shown for it.
3. `Layout.underline?_snippet` — the marks, for a span inside one line.

`underline_exact_iff` says for which spans there are as many marks as characters.
-/

namespace KernelCheck

namespace SourceText

/-- Behind `front` stands a line of which `shown` is shown: a line feed or the end of the text
ends the line, and carriage returns in front of that are left out. -/
structure ShownLine (cs front shown : List Char) : Prop where
  endsLine : EndsLine front
  oneLine : '\n' ∉ shown
  trimmed : shown.getLast? ≠ some '\r'
  split : ∃ returns rest, cs = front ++ ((shown ++ returns) ++ rest) ∧
    (∀ c ∈ returns, c = '\r') ∧ (rest = [] ∨ ∃ more, rest = '\n' :: more)

/-- The returns at the end of a line go, and nothing else. -/
theorem rdropWhile_returns {shown returns : List Char} (hshown : shown.getLast? ≠ some '\r')
    (hreturns : ∀ c ∈ returns, c = '\r') :
    (shown ++ returns).rdropWhile (· == '\r') = shown := by
  induction returns using List.reverseRecOn with
  | nil =>
      rw [List.append_nil, List.rdropWhile_eq_self_iff]
      intro hne hlast
      exact hshown (by rw [List.getLast?_eq_some_getLast hne, eq_of_beq hlast])
  | append_singleton rest c ih =>
      obtain rfl := hreturns c (by simp)
      rw [← List.append_assoc, List.rdropWhile_concat_pos _ _ _ (by simp)]
      exact ih fun c hc => hreturns c (List.mem_append_left _ hc)

/-- A text has as many bytes as characters if each of these takes one. -/
theorem byteLength_eq_length_iff (cs : List Char) :
    byteLength cs = cs.length ↔ ∀ c ∈ cs, c.utf8Size = 1 := by
  induction cs with
  | nil => simp
  | cons c rest ih =>
      have hpos := c.utf8Size_pos
      have hle := length_le_byteLength rest
      rw [byteLength_cons, List.length_cons, List.forall_mem_cons, ← ih]
      omega

end SourceText

open SourceText

variable {path text : String} {front indent marked tail : List Char}

/-- A span in a line starts in that line, behind as many characters as are in front of it. -/
theorem Source.spanStart_ofText (hsize : text.utf8ByteSize < Span.limit - 1)
    (hline : ShownLine text.toList front (indent ++ (marked ++ tail))) {span : Span}
    (hspan : span.start = SourceText.byteLength (front ++ indent)) :
    (ofText path text).spanStart span = (front.count '\n' + 1, indent.length + 1) := by
  obtain ⟨returns, rest, hsplit, -, -⟩ := hline.split
  have hindent : '\n' ∉ indent := fun h => hline.oneLine (List.mem_append_left _ h)
  have htext : text.toList =
      (front ++ indent) ++ (marked ++ (tail ++ (returns ++ rest))) := by
    simp [hsplit]
  have hinside : min span.start text.utf8ByteSize = SourceText.byteLength (front ++ indent) := by
    rw [hspan, ← byteLength_toList, htext, byteLength_append _ (marked ++ _)]
    omega
  rw [spanStart, position_ofText hsize htext hinside, scan, lastLine_append hindent,
    hline.endsLine.lastLine_eq_nil, List.nil_append, List.count_append,
    List.count_eq_zero.mpr hindent, Nat.add_zero, Nat.add_comm 1, Nat.add_comm 1]

/-- The line of a span is shown without its end. -/
theorem Source.spanLine?_ofText (hsize : text.utf8ByteSize < Span.limit - 1)
    (hline : ShownLine text.toList front (indent ++ (marked ++ tail))) {span : Span}
    (hspan : span.start = SourceText.byteLength (front ++ indent)) :
    (ofText path text).spanLine? span = some (indent ++ (marked ++ tail)) := by
  obtain ⟨returns, rest, hsplit, hreturns, hrest⟩ := hline.split
  have hone : '\n' ∉ (indent ++ (marked ++ tail)) ++ returns := by
    intro h
    rcases List.mem_append.mp h with h | h
    · exact hline.oneLine h
    · exact absurd (hreturns _ h) (by decide)
  rw [spanLine?, spanStart_ofText hsize hline hspan,
    lineText?_ofText hsize hsplit hline.endsLine hone hrest,
    rdropWhile_returns hline.trimmed hreturns]

namespace Layout

/-- The character that a label is marked with. -/
def mark (l : Label) : Char := if l.isPrimary then '^' else '-'

/-- The underline of a snippet: its first text with a style. -/
def underline? (pieces : List Piece) : Option String :=
  pieces.findSome? fun
    | .plain _ => none
    | .styled _ text => some text

/-- **The marks of a snippet**, for a span inside the shown part of a line: one for each byte of
the span, but none behind the end of the line, and one at least. -/
theorem underline?_snippet (hsize : text.utf8ByteSize < Span.limit - 1)
    (hline : ShownLine text.toList front (indent ++ (marked ++ tail))) {l : Label}
    (hspan : l.span = ⟨byteLength (front ++ indent), byteLength (front ++ (indent ++ marked))⟩) :
    underline? (snippet (Source.ofText path text) l) =
      some (row (max 1 (min (byteLength marked) (marked.length + tail.length))) (mark l)) := by
  have hstart : l.span.start = byteLength (front ++ indent) := by rw [hspan]
  have hlength : l.span.length = byteLength marked := by
    rw [hspan, Span.length]
    simp only [byteLength_append]
    omega
  have hrest : (indent ++ (marked ++ tail)).length - (indent.length + 1 - 1) =
      marked.length + tail.length := by
    simp only [List.length_append]
    omega
  rw [snippet, underlined, Source.spanStart_ofText hsize hline hstart,
    Source.spanLine?_ofText hsize hline hstart, hlength]
  simp only [Option.getD_some, underlineWidth, hrest]
  rfl

/-- Rows of the same character are the same if they are as long. -/
theorem row_inj {n m : Nat} {c : Char} : row n c = row m c ↔ n = m := by
  rw [row, row, String.ofList_inj, List.replicate_inj]
  simp

/-- Of a span with `chars` characters and `bytes` bytes, behind which `rest` characters of the
line are left, the marks are as many as the characters just if the two numbers agree, or
nothing is left. -/
theorem max_min_eq_iff {chars bytes rest : Nat} (hle : chars ≤ bytes)
    (hzero : chars = 0 → bytes = 0) :
    max 1 (min bytes (chars + rest)) = max 1 chars ↔ bytes = chars ∨ rest = 0 := by
  by_cases hchars : chars = 0
  · have hbytes := hzero hchars
    omega
  · omega

end Layout

open Layout in
/-- **An underline is as long as its span only if bytes are characters.**  A span inside the
shown part of a line gets one mark for each of its bytes, up to the end of the line, and one at
least.  That is one for each of its characters, and one at least, just if they all take one
byte or the span ends with the line; otherwise characters behind the span are marked, too. -/
theorem underline_exact_iff (path text : String) (front indent marked tail : List Char)
    (l : Label) (hsize : text.utf8ByteSize < Span.limit - 1)
    (hline : ShownLine text.toList front (indent ++ (marked ++ tail)))
    (hspan : l.span = ⟨byteLength (front ++ indent), byteLength (front ++ (indent ++ marked))⟩) :
    let underline := underline? (snippet (Source.ofText path text) l)
    underline =
        some (row (max 1 (min (byteLength marked) (marked.length + tail.length))) (mark l)) ∧
      (underline = some (row (max 1 marked.length) (mark l)) ↔
        (∀ c ∈ marked, c.utf8Size = 1) ∨ tail = []) := by
  intro underline
  have hmarks : underline = some (row
      (max 1 (min (byteLength marked) (marked.length + tail.length))) (mark l)) :=
    underline?_snippet hsize hline hspan
  refine ⟨hmarks, ?_⟩
  have hzero : marked.length = 0 → byteLength marked = 0 := by
    intro h
    rw [List.length_eq_zero_iff.mp h, byteLength_nil]
  rw [hmarks, Option.some_inj, row_inj, max_min_eq_iff (length_le_byteLength marked) hzero,
    byteLength_eq_length_iff, List.length_eq_zero_iff]

/-- A label on a name that is written with a character of two bytes, and its line. -/
def Layout.accentSample : Label := ⟨⟨4, 7⟩, "here", true⟩

/-- A line with an accent and both line ends, cut at a name. -/
theorem SourceText.shownLine_accentSample :
    ShownLine "int né = 1;\r\n".toList [] ("int ".toList ++ ("né".toList ++ " = 1;".toList)) where
  endsLine := .nil
  oneLine := by decide
  trimmed := by decide
  split := ⟨['\r'], ['\n'], by decide, by simp, Or.inr ⟨[], rfl⟩⟩

/-- The name has two characters and three bytes, so the blank behind it is marked, too. -/
theorem underline_exact_accentSample :
    let text := "int né = 1;\r\n"
    text.utf8ByteSize < Span.limit - 1 ∧
      ShownLine text.toList [] ("int ".toList ++ ("né".toList ++ " = 1;".toList)) ∧
      Layout.accentSample.span =
        ⟨byteLength ([] ++ "int ".toList), byteLength ([] ++ ("int ".toList ++ "né".toList))⟩ ∧
      Layout.underline? (Layout.snippet (Source.ofText "k.okl" text) Layout.accentSample) =
        some "^^^" := by
  intro text
  have hsize : text.utf8ByteSize < Span.limit - 1 := by decide
  have hspan : Layout.accentSample.span =
      ⟨byteLength ([] ++ "int ".toList), byteLength ([] ++ ("int ".toList ++ "né".toList))⟩ := by
    decide
  refine ⟨hsize, shownLine_accentSample, hspan, ?_⟩
  exact (underline_exact_iff "k.okl" text [] _ _ _ _ hsize shownLine_accentSample hspan).1.trans
    (by decide)

/-- It is not true that a span inside a line gets a mark for each of its characters, and one at
least. -/
theorem underline_exact_ne :
    ¬ ∀ (path text : String) (front indent marked tail : List Char) (l : Label),
      text.utf8ByteSize < Span.limit - 1 →
      ShownLine text.toList front (indent ++ (marked ++ tail)) →
      l.span = ⟨byteLength (front ++ indent), byteLength (front ++ (indent ++ marked))⟩ →
      Layout.underline? (Layout.snippet (Source.ofText path text) l) =
        some (Layout.row (max 1 marked.length) (Layout.mark l)) := by
  intro hclaim
  have hsize : "int né = 1;\r\n".utf8ByteSize < Span.limit - 1 := by decide
  have hexact := hclaim "k.okl" _ [] _ _ _ Layout.accentSample hsize shownLine_accentSample
    (by decide)
  rw [Layout.underline?_snippet hsize shownLine_accentSample (by decide)] at hexact
  exact absurd hexact (by decide)

end KernelCheck
