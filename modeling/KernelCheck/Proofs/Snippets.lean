import KernelCheck.Proofs.Colors
import KernelCheck.Proofs.Underlines

/-!
# Snippets

A snippet shows the line in which a span starts, below the place of the span and above its marks.
The place, the line and the marks come from three computations, in bytes and in characters and
from zero and from one; here they meet at one character.

1. `SourceText.shownLine_shownAround` — what is shown of the line around a place.
2. `SourceText.shownAround_eq` — it goes on with the character at that place, if that one is shown.
3. `Layout.rows_snippet` — the rows of a snippet.

`snippet_points` says that the first mark stands under the character at which the span starts.
-/

namespace KernelCheck

namespace SourceText

variable {before after : List Char} {c : Char}

/-- The line around a place, from the line feed in front of it to the next one. -/
def lineAround (before after : List Char) : List Char :=
  lastLine before ++ after.takeWhile (· != '\n')

/-- What is shown of the line around a place: all but the carriage returns at its end. -/
def shownAround (before after : List Char) : List Char :=
  (lineAround before after).rdropWhile (· == '\r')

/-- The place is inside what is shown: some character from there to the end of the line is no
carriage return. -/
def IsShown (after : List Char) : Prop := ∃ c ∈ after.takeWhile (· != '\n'), c ≠ '\r'

/-- The line around a place holds no line feed. -/
theorem lineFeed_notMem_lineAround (before after : List Char) : '\n' ∉ lineAround before after := by
  intro hmem
  rcases List.mem_append.mp hmem with hmem | hmem
  · simpa using List.mem_rtakeWhile_imp hmem
  · simpa using List.mem_takeWhile_imp hmem

/-- **What is shown of a line.**  In front of the line there are whole lines, and behind what is
shown of it there are the carriage returns that are left out, up to the next line feed. -/
theorem shownLine_shownAround (before after : List Char) : ∃ front,
    before = front ++ lastLine before ∧ front.count '\n' = before.count '\n' ∧
      ShownLine (before ++ after) front (shownAround before after) := by
  obtain ⟨front, hbefore, hfront, hcount⟩ := exists_lastLine before
  refine ⟨front, hbefore, hcount, hfront, ?_, ?_, ?_⟩
  · intro hmem
    exact lineFeed_notMem_lineAround before after ((List.rdropWhile_prefix _ _).subset hmem)
  · intro hlast
    have hne : shownAround before after ≠ [] := by
      intro hnil
      rw [hnil] at hlast
      cases hlast
    rw [List.getLast?_eq_some_getLast hne, Option.some_inj] at hlast
    exact List.rdropWhile_last_not _ _ hne (beq_iff_eq.mpr hlast)
  · refine ⟨(lineAround before after).rtakeWhile (· == '\r'), after.dropWhile (· != '\n'),
      ?_, ?_, ?_⟩
    · have hsplit : shownAround before after ++
          (lineAround before after).rtakeWhile (· == '\r') = lineAround before after :=
        List.rdropWhile_append_rtakeWhile
      rw [hsplit, lineAround, List.append_assoc, List.takeWhile_append_dropWhile,
        ← List.append_assoc, ← hbefore]
    · intro c hc
      have hreturn := List.mem_rtakeWhile_imp hc
      exact beq_iff_eq.mp hreturn
    · cases hrest : after.dropWhile (· != '\n') with
      | nil => exact .inl rfl
      | cons c more =>
          have hfeed := List.head?_dropWhile_not (· != '\n') after
          rw [hrest] at hfeed
          exact .inr ⟨more, by simpa using hfeed⟩

/-- What is dropped at the end is dropped from the second part, if any of that is left. -/
theorem rdropWhile_append {p : Char → Bool} {xs ys : List Char} (h : ys.rdropWhile p ≠ []) :
    (xs ++ ys).rdropWhile p = xs ++ ys.rdropWhile p := by
  have hstop : (ys.reverse.dropWhile p).isEmpty = false := by
    rw [List.isEmpty_eq_false_iff]
    exact fun hnil => h (List.reverse_eq_nil_iff.mpr hnil)
  rw [List.rdropWhile, List.reverse_append, List.dropWhile_append, hstop, if_neg Bool.false_ne_true,
    List.reverse_append, List.reverse_reverse]
  rfl

/-- The carriage returns that are left out stand behind any character that is shown. -/
theorem shownAround_eq (before : List Char) (h : IsShown (c :: after)) :
    ∃ tail, shownAround before (c :: after) = lastLine before ++ c :: tail := by
  obtain ⟨d, hd, hreturn⟩ := h
  have hleft : ((c :: after).takeWhile (· != '\n')).rdropWhile (· == '\r') ≠ [] := by
    rw [Ne, List.rdropWhile_eq_nil_iff]
    exact fun hall => hreturn (beq_iff_eq.mp (hall d hd))
  obtain ⟨first, tail, hrest⟩ := List.exists_cons_of_ne_nil hleft
  have hprefix : first :: tail <+: c :: after := by
    rw [← hrest]
    exact (List.rdropWhile_prefix _ _).trans (List.takeWhile_prefix _)
  rw [shownAround, lineAround, rdropWhile_append hleft, hrest, (List.cons_prefix_cons.mp hprefix).1]
  exact ⟨tail, rfl⟩

end SourceText

namespace Layout

open SourceText

/-- What is written of a layout without colours, cut at its line feeds. -/
def rows (pieces : List Piece) : List (List Char) :=
  (Piece.renderAll false pieces).toList.splitOn '\n'

/-- Rows that end in line feeds are found again, and nothing stands behind the last one. -/
theorem splitOn_flatMap_lineFeed {rows : List (List Char)} (h : ∀ row ∈ rows, '\n' ∉ row) :
    (rows.flatMap (· ++ ['\n'])).splitOn '\n' = rows ++ [[]] := by
  induction rows with
  | nil => rfl
  | cons row rest ih =>
      obtain ⟨hrow, hrest⟩ := List.forall_mem_cons.mp h
      rw [List.flatMap_cons, List.append_assoc, List.singleton_append,
        List.splitOn_append_cons_self_of_not_mem hrow, ih hrest, List.cons_append]

/-- A number in digits holds no line feed. -/
theorem lineFeed_notMem_toDigits (n : Nat) : '\n' ∉ Nat.toDigits 10 n :=
  fun h => absurd (Nat.isDigit_of_mem_toDigits (by decide) (by decide) h) (by decide)

/-- Room for the number of a line. -/
def gutter (line : Nat) : List Char := List.replicate line.repr.length ' '

/-- The row that shows a line. -/
def lineRow (line : Nat) (shown : List Char) : List Char :=
  line.repr.toList ++ ([' ', '|', ' '] ++ shown)

/-- The row that marks part of a line from a column on. -/
def markRow (line column width : Nat) (l : Label) : List Char :=
  gutter line ++ ([' ', '|', ' '] ++ (List.replicate (column - 1) ' ' ++
    (List.replicate width (mark l) ++ ' ' :: l.message.toList)))

/-- **The rows of a snippet**: the place, a row that leaves room, the line and the marks. -/
theorem rows_snippet {source : Source} {l : Label} {line column : Nat} {shown : List Char}
    (hplace : source.spanStart l.span = (line, column))
    (hline : source.spanLine? l.span = some shown) (hpath : '\n' ∉ source.path.toList)
    (hmessage : '\n' ∉ l.message.toList) (hshown : '\n' ∉ shown) :
    rows (snippet source l) =
      [gutter line ++ s!"--> {source.path}:{line}:{column}".toList,
       gutter line ++ [' ', '|'],
       lineRow line shown,
       markRow line column (underlineWidth l.span.length shown column) l,
       []] := by
  have hstring : ∀ text : String, toString text = text := fun _ => rfl
  have hrows : (Piece.renderAll false (snippet source l)).toList =
      [gutter line ++ s!"--> {source.path}:{line}:{column}".toList,
       gutter line ++ [' ', '|'],
       lineRow line shown,
       markRow line column (underlineWidth l.span.length shown column) l].flatMap
        (· ++ ['\n']) := by
    rw [Piece.toList_renderAll_false, snippet, underlined, hplace, hline]
    simp [Piece.text, row, gutter, lineRow, markRow, mark, hstring]
  have hmark : '\n' ≠ mark l := by
    unfold mark
    split <;> decide
  have hnumber := lineFeed_notMem_toDigits
  rw [rows, hrows, splitOn_flatMap_lineFeed]
  · rfl
  · simp [gutter, lineRow, markRow, hstring, hnumber, hpath, hmessage, hshown, hmark]

/-- Behind its gutter the row of a line shows the line. -/
theorem getElem?_lineRow (line : Nat) (shown : List Char) (i : Nat) :
    (lineRow line shown)[line.repr.length + 3 + i]? = shown[i]? := by
  have hmargin : (line.repr.toList ++ [' ', '|', ' ']).length = line.repr.length + 3 :=
    List.length_append.trans (congrArg (· + 3) String.length_toList)
  rw [lineRow, ← List.append_assoc, ← hmargin, List.getElem?_append_right (Nat.le_add_right _ _),
    Nat.add_sub_cancel_left]

/-- Behind its own gutter the row of marks shows blanks up to the column, the marks and the
message. -/
theorem getElem?_markRow (line column width : Nat) (l : Label) (i : Nat) :
    (markRow line column width l)[line.repr.length + 3 + i]? =
      (List.replicate (column - 1) ' ' ++
        (List.replicate width (mark l) ++ ' ' :: l.message.toList))[i]? := by
  have hmargin : (gutter line ++ [' ', '|', ' ']).length = line.repr.length + 3 := by simp [gutter]
  rw [markRow, ← List.append_assoc, ← hmargin, List.getElem?_append_right (Nat.le_add_right _ _),
    Nat.add_sub_cancel_left]

/-- In front of the marks there are blanks. -/
theorem getElem?_markRow_blank (line column width : Nat) (l : Label) {i : Nat}
    (hi : i < column - 1) :
    (markRow line column width l)[line.repr.length + 3 + i]? = some ' ' := by
  rw [getElem?_markRow, List.getElem?_append_left (by simpa using hi),
    List.getElem?_replicate_of_lt hi]

/-- Behind the blanks there are as many marks as the width says. -/
theorem getElem?_markRow_mark (line column : Nat) {width i : Nat} (l : Label) (hi : i < width) :
    (markRow line column width l)[line.repr.length + 3 + (column - 1 + i)]? = some (mark l) := by
  rw [getElem?_markRow, List.getElem?_append_right (by simp), List.length_replicate,
    Nat.add_sub_cancel_left, List.getElem?_append_left (by simpa using hi),
    List.getElem?_replicate_of_lt hi]

/-- From a column inside a line there is one mark at least, and the last one is inside, too. -/
theorem underlineWidth_le (length : Nat) {shown : List Char} {column : Nat}
    (hcolumn : column - 1 < shown.length) :
    0 < underlineWidth length shown column ∧
      column - 1 + underlineWidth length shown column ≤ shown.length := by
  unfold underlineWidth
  omega

end Layout

open SourceText Layout

/-- **A snippet points at the right character.**  For a span that starts on a character which is
shown, the rows of the snippet are the place, room, the line and its marks.  The line number and
the blanks below it are equally wide.  Behind them, at the column of the place, stand the
character itself and the first mark below it, and no mark stands behind the end of the line. -/
theorem snippet_points (path text : String) (before after : List Char) (c : Char) (l : Label)
    (hsize : text.utf8ByteSize < Span.limit - 1) (hpath : '\n' ∉ path.toList)
    (hmessage : '\n' ∉ l.message.toList) (htext : text.toList = before ++ c :: after)
    (hstart : l.span.start = byteLength before) (hshown : IsShown (c :: after)) :
    let line := before.count '\n' + 1
    let column := (lastLine before).length + 1
    let shown := shownAround before (c :: after)
    let width := underlineWidth l.span.length shown column
    let margin := line.repr.length + 3
    rows (snippet (Source.ofText path text) l) =
        [gutter line ++ s!"--> {path}:{line}:{column}".toList,
         gutter line ++ [' ', '|'],
         lineRow line shown,
         markRow line column width l,
         []] ∧
      (gutter line).length = line.repr.length ∧
      (∀ i, (lineRow line shown)[margin + i]? = shown[i]?) ∧
      shown[column - 1]? = some c ∧
      (∀ i < column - 1, (markRow line column width l)[margin + i]? = some ' ') ∧
      (∀ i < width, (markRow line column width l)[margin + (column - 1 + i)]? = some (mark l)) ∧
      0 < width ∧ column - 1 + width ≤ shown.length := by
  intro line column shown width margin
  obtain ⟨front, hbefore, hcount, hline⟩ := shownLine_shownAround before (c :: after)
  obtain ⟨tail, htail⟩ := shownAround_eq before hshown
  -- Both sides of the line say where the span starts, in bytes and in characters.
  have hspan : l.span.start = byteLength (front ++ lastLine before) := by rw [← hbefore, hstart]
  have hsplit : ShownLine text.toList front (lastLine before ++ ([c] ++ tail)) := by
    rw [htext]
    exact htail ▸ hline
  have hplace : (Source.ofText path text).spanStart l.span = (line, column) := by
    rw [Source.spanStart_ofText hsize hsplit hspan, hcount]
  have hspanLine : (Source.ofText path text).spanLine? l.span = some shown :=
    (Source.spanLine?_ofText hsize hsplit hspan).trans (congrArg some htail.symm)
  have hat : shown[column - 1]? = some c := by
    simp [shown, column, htail]
  have hcolumn : column - 1 < shown.length := (List.getElem?_eq_some_iff.mp hat).1
  refine ⟨?_, ?_, ?_, hat, ?_, ?_, ?_⟩
  · exact rows_snippet hplace hspanLine hpath hmessage hline.oneLine
  · rw [gutter, List.length_replicate]
  · exact getElem?_lineRow line shown
  · exact fun i hi => getElem?_markRow_blank line column width l hi
  · exact fun i hi => getElem?_markRow_mark line column l hi
  · exact underlineWidth_le l.span.length hcolumn

/-- A label in the tenth line, behind a character of two bytes. -/
def Layout.tenthSample : Label := ⟨⟨19, 20⟩, "here", true⟩

/-- The number of the line takes two digits, and the column counts the character of two bytes
once. -/
theorem snippet_points_tenthSample :
    let text := "\n\n\n\n\n\n\n\n\nint né = x;\r\n"
    let before := "\n\n\n\n\n\n\n\n\nint né = ".toList
    let after := [';', '\r', '\n']
    text.utf8ByteSize < Span.limit - 1 ∧ '\n' ∉ "k.okl".toList ∧
      '\n' ∉ tenthSample.message.toList ∧ text.toList = before ++ 'x' :: after ∧
      tenthSample.span.start = byteLength before ∧ IsShown ('x' :: after) ∧
      rows (snippet (Source.ofText "k.okl" text) tenthSample) =
        ["  --> k.okl:10:10".toList,
         "   |".toList,
         "10 | int né = x;".toList,
         "   |          ^ here".toList,
         []] := by
  intro text before after
  have hsize : text.utf8ByteSize < Span.limit - 1 := by decide
  have hpath : '\n' ∉ "k.okl".toList := by decide
  have hmessage : '\n' ∉ tenthSample.message.toList := by decide
  have htext : text.toList = before ++ 'x' :: after := by decide
  have hstart : tenthSample.span.start = byteLength before := by decide
  have hshown : IsShown ('x' :: after) := ⟨'x', by decide, by decide⟩
  refine ⟨hsize, hpath, hmessage, htext, hstart, hshown, ?_⟩
  exact (snippet_points "k.okl" text before after 'x' tenthSample hsize hpath hmessage htext hstart
    hshown).1.trans (by decide +kernel)

end KernelCheck
