import KernelCheck.Diagnostic.Source
import Mathlib.Data.List.DropRight
import Mathlib.Data.List.GetD
import Mathlib.Data.Prod.Lex

/-!
# Lines by a linear scan

A source answers questions about lines from a table of line starts and a search by
halving.  Here its answers are those of a scan through the text, one character after the
other.

1. `SourceText.slice?_append` — what stands between two places of a text is found by their
   offsets.
2. `SourceText.lineIndex_search` — the search finds the last start that is not behind the
   offset.
3. `SourceText.getElem?_lineStarts` — a place behind a line feed is in the table, under the
   number of line feeds in front of it.
4. `Source.position_ofText` and `Source.lineText?_ofText` — positions and lines.
5. `Source.strictMonoOn_position` — positions grow with their offsets.

`lines_scanned` puts them together.
-/

namespace KernelCheck

namespace SourceText

/-! ## Bytes -/

/-- No characters take no bytes. -/
@[simp] theorem byteLength_nil : byteLength [] = 0 := rfl

/-- A character in front takes its own bytes. -/
@[simp] theorem byteLength_cons (c : Char) (cs : List Char) :
    byteLength (c :: cs) = c.utf8Size + byteLength cs := rfl

/-- The bytes of two texts, one after the other. -/
@[simp] theorem byteLength_append (xs ys : List Char) :
    byteLength (xs ++ ys) = byteLength xs + byteLength ys := by
  induction xs with
  | nil => simp
  | cons c rest ih => simp [ih, Nat.add_assoc]

/-- A character takes at least one byte. -/
theorem length_le_byteLength (cs : List Char) : cs.length ≤ byteLength cs := by
  induction cs with
  | nil => exact Nat.le_refl 0
  | cons c rest ih =>
      have hpos := c.utf8Size_pos
      simp only [byteLength_cons, List.length_cons]
      omega

/-- The bytes of a text are those of its characters. -/
theorem byteLength_toList (text : String) : byteLength text.toList = text.utf8ByteSize := by
  have hofList : ∀ cs, byteLength cs = (String.ofList cs).utf8ByteSize := by
    intro cs
    induction cs with
    | nil => simp
    | cons c rest ih =>
        have hsplit : String.ofList (c :: rest) = String.singleton c ++ String.ofList rest := by
          rw [String.singleton_eq_ofList, ← String.ofList_append]
          rfl
        rw [byteLength_cons, ih, hsplit, String.utf8ByteSize_append, String.utf8ByteSize_singleton]
  rw [hofList, String.ofList_toList]

/-- A character takes at least one byte. -/
theorem exists_utf8Size_add (c : Char) (k : Nat) :
    ∃ n, c.utf8Size + k = n + 1 ∧ n + 1 - c.utf8Size = k := by
  have hpos := c.utf8Size_pos
  exact ⟨c.utf8Size + k - 1, by omega, by omega⟩

/-- Behind the bytes of the first part stands the second. -/
theorem dropBytes?_append (xs ys : List Char) :
    dropBytes? (byteLength xs) (xs ++ ys) = some ys := by
  induction xs with
  | nil => simp [dropBytes?]
  | cons c rest ih =>
      obtain ⟨n, hn, hrest⟩ := exists_utf8Size_add c (byteLength rest)
      rw [byteLength_cons, hn, List.cons_append, dropBytes?, if_pos (by omega), hrest, ih]

/-- The bytes of the first part are the first part. -/
theorem takeBytes?_append (xs ys : List Char) :
    takeBytes? (byteLength xs) (xs ++ ys) = some xs := by
  induction xs with
  | nil => simp [takeBytes?]
  | cons c rest ih =>
      obtain ⟨n, hn, hrest⟩ := exists_utf8Size_add c (byteLength rest)
      rw [byteLength_cons, hn, List.cons_append, takeBytes?, if_pos (by omega), hrest, ih]
      rfl

/-- What stands between two places is the text between their offsets. -/
theorem slice?_append (xs ys zs : List Char) :
    slice? (xs ++ (ys ++ zs)) (byteLength xs) (byteLength (xs ++ ys)) = some ys := by
  rw [slice?, dropBytes?_append, Option.bind_some, byteLength_append, Nat.add_sub_cancel_left,
    takeBytes?_append]

/-! ## Line starts -/

/-- The line starts of two texts, those of the second one moved by the first. -/
theorem startsAfter_append (offset : Nat) (xs ys : List Char) :
    startsAfter offset (xs ++ ys) =
      startsAfter offset xs ++ startsAfter (offset + byteLength xs) ys := by
  induction xs generalizing offset with
  | nil => simp [startsAfter]
  | cons c rest ih =>
      rw [List.cons_append, startsAfter, startsAfter, ih, byteLength_cons, Nat.add_assoc]
      split <;> rfl

/-- There is one start for each line feed. -/
theorem length_startsAfter (offset : Nat) (cs : List Char) :
    (startsAfter offset cs).length = cs.count '\n' := by
  induction cs generalizing offset with
  | nil => rfl
  | cons c rest ih =>
      rw [startsAfter, List.count_cons]
      split <;> simp [ih]

/-- A line starts behind the offset, and at the latest at the end of the text. -/
theorem bounds_of_mem_startsAfter {offset start : Nat} {cs : List Char}
    (h : start ∈ startsAfter offset cs) : offset < start ∧ start ≤ offset + byteLength cs := by
  induction cs generalizing offset with
  | nil => cases h
  | cons c rest ih =>
      have hpos := c.utf8Size_pos
      rw [startsAfter] at h
      rw [byteLength_cons]
      split at h
      · rcases List.mem_cons.mp h with rfl | h
        · omega
        · have hrest := ih h
          omega
      · have hrest := ih h
        omega

/-- The line starts are in order, and no two are the same. -/
theorem pairwise_startsAfter (offset : Nat) (cs : List Char) :
    (startsAfter offset cs).Pairwise (· < ·) := by
  induction cs generalizing offset with
  | nil => exact .nil
  | cons c rest ih =>
      rw [startsAfter]
      split
      · exact .cons (fun start h => (bounds_of_mem_startsAfter h).1) (ih _)
      · exact ih _

/-- As long as a text is not too long, its offsets fit into the table as they are. -/
theorem lineStarts_eq {cs : List Char} (hsize : byteLength cs < Span.limit - 1) :
    lineStarts cs = 0 :: startsAfter 0 cs := by
  have hfits : ∀ start ∈ startsAfter 0 cs, min (Span.limit - 1) start = id start := by
    intro start h
    have hstart := (bounds_of_mem_startsAfter h).2
    simp only [id_eq]
    omega
  rw [lineStarts, List.map_congr_left hfits, List.map_id]

/-- A line begins behind this text: it is empty, or it ends in a line feed. -/
inductive EndsLine : List Char → Prop
  | nil : EndsLine []
  | lineFeed (cs : List Char) : EndsLine (cs ++ ['\n'])

/-- The start of a line is in the table under the number of line feeds in front of it. -/
theorem getElem?_lineStarts {front rest : List Char}
    (hsize : byteLength (front ++ rest) < Span.limit - 1) (hfront : EndsLine front) :
    (lineStarts (front ++ rest))[front.count '\n']? = some (byteLength front) := by
  rw [lineStarts_eq hsize, startsAfter_append]
  cases hfront with
  | nil => rfl
  | lineFeed cs =>
      have hfeed : startsAfter 0 (cs ++ ['\n']) =
          startsAfter 0 cs ++ [byteLength (cs ++ ['\n'])] := by
        rw [startsAfter_append, byteLength_append]
        simp [startsAfter]
      have hcount : (cs ++ ['\n']).count '\n' = (startsAfter 0 cs).length + 1 := by
        rw [length_startsAfter, List.count_append]
        rfl
      rw [hfeed, hcount, List.getElem?_cons_succ, List.append_assoc,
        List.getElem?_append_right (Nat.le_refl _), Nat.sub_self]
      rfl

/-! ## The search -/

/-- **Halving finds the line.**  If `left` are the starts that are not behind the offset, then
the search ends at the last of them, be it the offset itself or not.  The range that is still
searched always holds the end of `left`. -/
theorem lineIndex_search {left right : List Nat} {offset low high : Nat}
    (hsorted : (left ++ right).Pairwise (· < ·)) (hleft : ∀ x ∈ left, x ≤ offset)
    (hright : ∀ x ∈ right, offset < x) (hlow : low ≤ left.length) (hhigh : left.length ≤ high)
    (hlen : high ≤ (left ++ right).length) :
    (search (left ++ right) offset low high).lineIndex = left.length - 1 := by
  have hget : ∀ i (hi : i < (left ++ right).length),
      (left ++ right).getD i 0 = (left ++ right)[i] :=
    fun i hi => List.getD_eq_getElem _ 0 hi
  have hside : ∀ i (hi : i < (left ++ right).length),
      (left ++ right)[i] ≤ offset ↔ i < left.length := by
    intro i hi
    constructor
    · intro hle
      by_contra hge
      have hmem : (left ++ right)[i] ∈ right := by
        rw [List.getElem_append_right (by omega)]
        exact List.getElem_mem _
      have := hright _ hmem
      omega
    · intro hlt
      rw [List.getElem_append_left hlt]
      exact hleft _ (List.getElem_mem _)
  fun_induction search (left ++ right) offset low high with
  | case1 low high hlt middle start heq =>
      -- The offset is a start itself; the next one is behind it.
      have hmiddle : middle < (left ++ right).length := by omega
      have hle := (hside middle hmiddle).mp (by rw [← hget middle hmiddle]; omega)
      have hlast : ¬ middle + 1 < left.length := by
        intro hnext
        have hnext' : middle + 1 < (left ++ right).length := by
          rw [List.length_append]
          omega
        have hlt := List.pairwise_iff_getElem.mp hsorted middle (middle + 1) hmiddle hnext'
          (Nat.lt_succ_self _)
        have hle := (hside (middle + 1) hnext').mpr hnext
        have hstart := hget middle hmiddle
        omega
      rw [Found.lineIndex]
      omega
  | case2 low high hlt middle start hne hless ih =>
      have hmiddle : middle < (left ++ right).length := by omega
      have hle := (hside middle hmiddle).mp (by rw [← hget middle hmiddle]; omega)
      exact ih (by omega) hhigh hlen
  | case3 low high hlt middle start hne hless ih =>
      have hmiddle : middle < (left ++ right).length := by omega
      have hgt := (hside middle hmiddle).not.mp (by rw [← hget middle hmiddle]; omega)
      exact ih hlow (by omega) (by omega)
  | case4 low high hge =>
      rw [Found.lineIndex]
      omega

/-! ## The scan -/

/-- A place lies between two characters, or at an end. -/
def IsBoundary (cs : List Char) (offset : Nat) : Prop :=
  ∃ before after, cs = before ++ after ∧ byteLength before = offset

/-- What stands behind the last line feed of a text. -/
def lastLine (cs : List Char) : List Char := cs.rtakeWhile (· != '\n')

/-- What a scan has counted at the end of a text: its lines, and the characters of the last
one, both with one more for what comes next. -/
def scan (before : List Char) : Nat × Nat :=
  (1 + before.count '\n', 1 + (lastLine before).length)

/-- Text without a line feed goes on with the last line. -/
theorem lastLine_append {cs more : List Char} (hmore : '\n' ∉ more) :
    lastLine (cs ++ more) = lastLine cs ++ more := by
  have hall : ∀ c ∈ more.reverse, (c != '\n') = true := by
    intro c hc
    rw [bne_iff_ne]
    rintro rfl
    exact hmore (List.mem_reverse.mp hc)
  rw [lastLine, List.rtakeWhile, List.reverse_append, List.takeWhile_append_of_pos hall,
    List.reverse_append, List.reverse_reverse, lastLine, List.rtakeWhile]

/-- Behind a line feed the last line is empty. -/
theorem EndsLine.lastLine_eq_nil {front : List Char} (h : EndsLine front) :
    lastLine front = [] := by
  cases h with
  | nil => rfl
  | lineFeed cs => exact List.rtakeWhile_concat_neg (· != '\n') cs '\n' (by decide)

/-- A text falls into whole lines and the beginning of one. -/
theorem exists_lastLine (before : List Char) : ∃ front,
    before = front ++ lastLine before ∧ EndsLine front ∧
      front.count '\n' = before.count '\n' := by
  have hsplit : before.rdropWhile (· != '\n') ++ lastLine before = before :=
    List.rdropWhile_append_rtakeWhile
  refine ⟨before.rdropWhile (· != '\n'), hsplit.symm, ?_, ?_⟩
  · rcases List.eq_nil_or_concat' (before.rdropWhile (· != '\n')) with hnil | ⟨cs, c, hc⟩
    · rw [hnil]
      exact .nil
    · have hlast := List.rdropWhile_last_not (· != '\n') before (by simp [hc])
      simp only [hc, List.getLast_concat] at hlast
      obtain rfl : c = '\n' := by simpa using hlast
      rw [hc]
      exact .lineFeed cs
  · have hnone : (lastLine before).count '\n' = 0 := by
      rw [List.count_eq_zero]
      intro hmem
      simpa using List.mem_rtakeWhile_imp hmem
    conv_rhs => rw [← hsplit]
    rw [List.count_append, hnone, Nat.add_zero]

/-- Further on a scan has counted more. -/
theorem scan_lt_scan {before more : List Char} (hmore : more ≠ []) :
    toLex (scan before) < toLex (scan (before ++ more)) := by
  rw [Prod.Lex.toLex_lt_toLex]
  simp only [scan, List.count_append]
  by_cases hfeed : '\n' ∈ more
  · have hpos := List.count_pos_iff.mpr hfeed
    exact Or.inl (by omega)
  · have hpos := List.length_pos_iff.mpr hmore
    refine Or.inr ⟨by rw [List.count_eq_zero.mpr hfeed, Nat.add_zero], ?_⟩
    rw [lastLine_append hfeed, List.length_append]
    omega

/-- Of two places in a text, what is in front of the nearer one begins what is in front of the
other. -/
theorem exists_between {cs : List Char} {near far : Nat} (hnear : IsBoundary cs near)
    (hfar : IsBoundary cs far) (hlt : near < far) :
    ∃ before between after, cs = before ++ (between ++ after) ∧ between ≠ [] ∧
      byteLength before = near ∧ byteLength (before ++ between) = far := by
  obtain ⟨before, rest, rfl, rfl⟩ := hnear
  obtain ⟨before', after, hsplit, rfl⟩ := hfar
  rcases List.append_eq_append_iff.mp hsplit with ⟨between, rfl, rfl⟩ | ⟨more, rfl, -⟩
  · refine ⟨before, between, after, rfl, ?_, rfl, rfl⟩
    rintro rfl
    simp at hlt
  · rw [byteLength_append] at hlt
    omega

/-! ## Pieces -/

/-- There is one line more than there are line feeds. -/
theorem length_splitOn (cs : List Char) : (cs.splitOn '\n').length = cs.count '\n' + 1 := by
  induction cs with
  | nil => simp
  | cons c rest ih =>
      rw [List.splitOn_cons_eq_if_modifyHead, List.count_cons]
      split <;> simp [ih]

/-- A line holds no line feed, so only carriage returns are taken off behind it. -/
theorem trimLineEnds_eq {line : List Char} (hline : '\n' ∉ line) :
    trimLineEnds line = line.rdropWhile (· == '\r') := by
  change line.rdropWhile isLineEnd = _
  induction line using List.reverseRecOn with
  | nil => rfl
  | append_singleton rest c ih =>
      rw [List.mem_append, List.mem_singleton, not_or] at hline
      have hc : isLineEnd c = (c == '\r') := by
        rw [isLineEnd, beq_eq_false_iff_ne.mpr (Ne.symm hline.2), Bool.false_or]
      rw [List.rdropWhile_concat, List.rdropWhile_concat, hc, ih hline.1]

/-- Of a line with its line feed, the returns in front of it go as well. -/
theorem trimLineEnds_lineFeed {line : List Char} (hline : '\n' ∉ line) :
    trimLineEnds (line ++ ['\n']) = line.rdropWhile (· == '\r') := by
  rw [← trimLineEnds_eq hline]
  exact List.rdropWhile_concat_pos isLineEnd line '\n' rfl

end SourceText

namespace Source

open SourceText

variable (path text : String)

/-- A source keeps the characters of its text. -/
@[simp] theorem chars_ofText : (ofText path text).chars = text.toList := rfl

/-- A source knows the line starts of its text. -/
@[simp] theorem lineStarts_ofText :
    (ofText path text).lineStarts = SourceText.lineStarts text.toList := rfl

/-- A source knows the bytes of its text. -/
@[simp] theorem byteLength_ofText : (ofText path text).byteLength = text.utf8ByteSize :=
  byteLength_toList text

/-! ## Positions -/

variable {path text}

/-- The start of a line, by the line feeds in front of it. -/
theorem lineStart?_ofText (hsize : text.utf8ByteSize < Span.limit - 1) {front rest : List Char}
    (htext : text.toList = front ++ rest) (hfront : EndsLine front) :
    (ofText path text).lineStart? (front.count '\n' + 1) = some (SourceText.byteLength front) := by
  rw [← byteLength_toList, htext] at hsize
  rw [lineStart?, if_neg (Nat.succ_ne_zero _), lineStarts_ofText, htext, Nat.add_sub_cancel,
    getElem?_lineStarts hsize hfront]

/-- The line of an offset, by the line feeds in front of it. -/
theorem lineOf_ofText (hsize : text.utf8ByteSize < Span.limit - 1) {before after : List Char}
    (htext : text.toList = before ++ after) {offset : Nat}
    (hoffset : min offset text.utf8ByteSize = SourceText.byteLength before) :
    (ofText path text).lineOf offset = before.count '\n' + 1 := by
  rw [← byteLength_toList, htext] at hsize hoffset
  have hstarts : (ofText path text).lineStarts =
      (0 :: startsAfter 0 before) ++ startsAfter (SourceText.byteLength before) after := by
    rw [lineStarts_ofText, htext, lineStarts_eq hsize, startsAfter_append, Nat.zero_add]
    rfl
  have hleft : ∀ start ∈ 0 :: startsAfter 0 before, start ≤ offset := by
    intro start h
    rcases List.mem_cons.mp h with rfl | h
    · exact Nat.zero_le _
    · have hbound := (bounds_of_mem_startsAfter h).2
      omega
  have hright : ∀ start ∈ startsAfter (SourceText.byteLength before) after, offset < start := by
    intro start h
    have hbounds := bounds_of_mem_startsAfter h
    rw [byteLength_append] at hoffset
    omega
  have hsorted : ((0 :: startsAfter 0 before) ++
      startsAfter (SourceText.byteLength before) after).Pairwise (· < ·) := by
    have hzero := (startsAfter_append 0 before after).symm
    rw [Nat.zero_add] at hzero
    rw [List.cons_append, hzero]
    exact .cons (fun start h => (bounds_of_mem_startsAfter h).1) (pairwise_startsAfter 0 _)
  have hfits : before.count '\n' ≤ Span.limit - 2 := by
    have hcount := before.count_le_length (a := '\n')
    have hlength := length_le_byteLength before
    rw [byteLength_append] at hsize
    omega
  rw [lineOf, hstarts, lineIndex_search hsorted hleft hright (Nat.zero_le _) (by simp)
    (Nat.le_refl _), List.length_cons, length_startsAfter, Nat.add_sub_cancel, ordinal,
    Nat.min_eq_left hfits]

/-- **A position is what a scan up to it has counted.** -/
theorem position_ofText (hsize : text.utf8ByteSize < Span.limit - 1) {before after : List Char}
    (htext : text.toList = before ++ after) {offset : Nat}
    (hoffset : min offset text.utf8ByteSize = SourceText.byteLength before) :
    (ofText path text).position offset = scan before := by
  obtain ⟨front, hbefore, hfront, hcount⟩ := exists_lastLine before
  generalize hlast : lastLine before = last at hbefore
  have hstart : (ofText path text).lineStart? (before.count '\n' + 1) =
      some (SourceText.byteLength front) := by
    rw [← hcount]
    have hrest : text.toList = front ++ (last ++ after) := by
      rw [htext, hbefore, List.append_assoc]
    exact lineStart?_ofText hsize hrest hfront
  have hslice : slice? text.toList (SourceText.byteLength front) (SourceText.byteLength before) =
      some last := by
    rw [htext, hbefore, List.append_assoc]
    exact slice?_append front last after
  have hfits : last.length ≤ Span.limit - 2 := by
    have hlength := length_le_byteLength last
    rw [← byteLength_toList, htext, hbefore] at hsize
    simp only [byteLength_append] at hsize
    omega
  rw [position, lineOf_ofText hsize htext hoffset, hstart, Option.getD_some, chars_ofText,
    byteLength_ofText, hoffset, hslice, Option.getD_some, ordinal, Nat.min_eq_left hfits, scan,
    hlast, Nat.add_comm 1, Nat.add_comm 1]

/-- Positions grow with their offsets, and tell them apart. -/
theorem strictMonoOn_position (path : String) (hsize : text.utf8ByteSize < Span.limit - 1) :
    StrictMonoOn (fun offset => toLex ((ofText path text).position offset))
      {offset | IsBoundary text.toList offset} := by
  intro near hnear far hfar hlt
  obtain ⟨before, between, after, htext, hbetween, rfl, rfl⟩ := exists_between hnear hfar hlt
  have hle : SourceText.byteLength before + SourceText.byteLength between ≤ text.utf8ByteSize := by
    rw [← byteLength_toList, htext, byteLength_append, byteLength_append]
    omega
  have hsplit : text.toList = (before ++ between) ++ after := by simp [htext]
  have hnear : (ofText path text).position (SourceText.byteLength before) = scan before :=
    position_ofText hsize htext (Nat.min_eq_left (by omega))
  have hfar : (ofText path text).position (SourceText.byteLength (before ++ between)) =
      scan (before ++ between) :=
    position_ofText hsize hsplit (Nat.min_eq_left (by rw [byteLength_append]; omega))
  simp only [hnear, hfar]
  exact scan_lt_scan hbetween

/-! ## Texts of lines -/

/-- There is no line behind the last line feed but the last. -/
theorem lineStart?_eq_none (hsize : text.utf8ByteSize < Span.limit - 1) {k : Nat}
    (hk : text.toList.count '\n' < k) : (ofText path text).lineStart? (k + 1) = none := by
  rw [← byteLength_toList] at hsize
  rw [lineStart?, if_neg (Nat.succ_ne_zero _), lineStarts_ofText, lineStarts_eq hsize,
    Nat.add_sub_cancel, List.getElem?_eq_none_iff, List.length_cons, length_startsAfter]
  omega

/-- The text of a line is what stands between two line starts, without its end. -/
theorem lineText?_eq {source : Source} {k start stop : Nat} {piece : List Char}
    (hstart : source.lineStart? k = some start)
    (hstop : (source.lineStart? (k + 1)).getD source.byteLength = stop)
    (hslice : slice? source.chars start stop = some piece) :
    source.lineText? k = some (trimLineEnds piece) := by
  simp [lineText?, hstart, hstop, hslice]

/-- A whole line, with what ends it or without. -/
theorem lineText?_ofText (hsize : text.utf8ByteSize < Span.limit - 1) {front line rest : List Char}
    (htext : text.toList = front ++ (line ++ rest)) (hfront : EndsLine front)
    (hline : '\n' ∉ line) (hrest : rest = [] ∨ ∃ more, rest = '\n' :: more) :
    (ofText path text).lineText? (front.count '\n' + 1) =
      some (line.rdropWhile (· == '\r')) := by
  have hstart : (ofText path text).lineStart? (front.count '\n' + 1) =
      some (SourceText.byteLength front) := lineStart?_ofText hsize htext hfront
  rcases hrest with rfl | ⟨more, rfl⟩
  · have hnone : (ofText path text).lineStart? (front.count '\n' + 1 + 1) = none := by
      apply lineStart?_eq_none hsize
      rw [htext, List.append_nil, List.count_append, List.count_eq_zero.mpr hline]
      omega
    have hslice : slice? text.toList (SourceText.byteLength front) text.utf8ByteSize =
        some line := by
      rw [← byteLength_toList, htext]
      simpa only [List.append_nil] using slice?_append front line []
    rw [← trimLineEnds_eq hline]
    exact lineText?_eq hstart (by rw [hnone, Option.getD_none, byteLength_ofText]) hslice
  · have hcount : front.count '\n' + 1 = (front ++ (line ++ ['\n'])).count '\n' := by
      simp [List.count_eq_zero.mpr hline]
    have hends : EndsLine (front ++ (line ++ ['\n'])) := by
      rw [← List.append_assoc]
      exact .lineFeed _
    have hnext : (ofText path text).lineStart? (front.count '\n' + 1 + 1) =
        some (SourceText.byteLength (front ++ (line ++ ['\n']))) := by
      have hrest : text.toList = (front ++ (line ++ ['\n'])) ++ more := by simp [htext]
      rw [hcount]
      exact lineStart?_ofText hsize hrest hends
    have hslice : slice? text.toList (SourceText.byteLength front)
        (SourceText.byteLength (front ++ (line ++ ['\n']))) = some (line ++ ['\n']) := by
      have hsplit : line ++ '\n' :: more = (line ++ ['\n']) ++ more := by simp
      rw [htext, hsplit]
      exact slice?_append front (line ++ ['\n']) more
    rw [← trimLineEnds_lineFeed hline]
    exact lineText?_eq hstart (by rw [hnext, Option.getD_some]) hslice

/-- **The lines of a source** are the pieces between its line feeds, from any line start on.
The induction is on what is left of the text. -/
theorem lineText?_pieces (hsize : text.utf8ByteSize < Span.limit - 1) {front rest : List Char}
    (htext : text.toList = front ++ rest) (hfront : EndsLine front) (k : Nat) :
    (ofText path text).lineText? (front.count '\n' + k + 1) =
      ((rest.splitOn '\n')[k]?).map (·.rdropWhile (· == '\r')) := by
  induction hlen : rest.length using Nat.strong_induction_on generalizing front rest k with
  | _ n ih =>
      by_cases hfeed : '\n' ∈ rest
      · obtain ⟨line, more, rfl, hline⟩ := List.eq_append_cons_of_mem hfeed
        rw [List.splitOn_append_cons_self_of_not_mem hline]
        cases k with
        | zero => exact lineText?_ofText hsize htext hfront hline (Or.inr ⟨more, rfl⟩)
        | succ k =>
            have hcount : (front ++ (line ++ ['\n'])).count '\n' = front.count '\n' + 1 := by
              simp [List.count_eq_zero.mpr hline]
            have hends : EndsLine (front ++ (line ++ ['\n'])) := by
              rw [← List.append_assoc]
              exact .lineFeed _
            have hrest : text.toList = (front ++ (line ++ ['\n'])) ++ more := by simp [htext]
            have hmore := ih more.length (by simp [← hlen]; omega) hrest hends k rfl
            rw [hcount] at hmore
            rw [List.getElem?_cons_succ, ← hmore]
            congr 1
            omega
      · rw [List.splitOn_eq_singleton hfeed]
        cases k with
        | zero => exact lineText?_ofText hsize (by simpa using htext) hfront hfeed (Or.inl rfl)
        | succ k =>
            have hnone : (ofText path text).lineStart? (front.count '\n' + (k + 1) + 1) = none := by
              apply lineStart?_eq_none hsize
              rw [htext, List.count_append, List.count_eq_zero.mpr hfeed]
              omega
            rw [lineText?, hnone]
            rfl

end Source

open SourceText in
/-- **The table of line starts answers as a scan does.**  For a source below four gibibytes:
the position of any offset that, cut at the end of the text, lies between two characters is
what a scan has counted there.  So positions tell such places apart and grow with them, and
everything behind the end is where the end is.  A line is the piece between two line feeds
without the carriage returns behind it, and there are no other lines. -/
theorem lines_scanned (path text : String) (hsize : text.utf8ByteSize < Span.limit - 1) :
    let source := Source.ofText path text
    (∀ before after offset, text.toList = before ++ after →
        min offset text.utf8ByteSize = byteLength before → source.position offset = scan before) ∧
      (∀ near far, IsBoundary text.toList near → IsBoundary text.toList far →
        (source.position near = source.position far ↔ near = far) ∧
        (toLex (source.position near) < toLex (source.position far) ↔ near < far)) ∧
      (∀ offset, text.utf8ByteSize ≤ offset →
        source.position offset = source.position text.utf8ByteSize) ∧
      source.lineCount = (text.toList.splitOn '\n').length ∧
      source.lineText? 0 = none ∧
      ∀ k, source.lineText? (k + 1) =
        ((text.toList.splitOn '\n')[k]?).map (·.rdropWhile (· == '\r')) := by
  intro source
  have hposition : ∀ before after offset, text.toList = before ++ after →
      min offset text.utf8ByteSize = byteLength before → source.position offset = scan before :=
    fun before after offset htext hoffset => Source.position_ofText hsize htext hoffset
  refine ⟨hposition, ?_, ?_, ?_, rfl, ?_⟩
  · intro near far hnear hfar
    have hmono := Source.strictMonoOn_position path hsize
    exact ⟨toLex_inj.symm.trans (hmono.eq_iff_eq hnear hfar), hmono.lt_iff_lt hnear hfar⟩
  · intro offset hpast
    have hend : text.utf8ByteSize = byteLength text.toList := (byteLength_toList text).symm
    rw [hposition text.toList [] offset (by simp) (by omega),
      hposition text.toList [] text.utf8ByteSize (by simp) (by omega)]
  · change (lineStarts text.toList).length = _
    rw [length_splitOn, lineStarts, List.length_cons, List.length_map, length_startsAfter]
  · intro k
    have hall : text.toList = [] ++ text.toList := rfl
    have hpieces : source.lineText? (([] : List Char).count '\n' + k + 1) = _ :=
      Source.lineText?_pieces hsize hall .nil k
    rwa [List.count_nil, Nat.zero_add] at hpieces

/-- Two lines with a character of two bytes and a carriage return: the second line feed ends a
line, and behind it stands an empty one. -/
theorem lines_scanned_accentSample :
    let text := "x\n// é\r\n"
    let source := Source.ofText "k.okl" text
    text.utf8ByteSize < Span.limit - 1 ∧
      source.position 7 = (2, 5) ∧
      source.position 8 = (2, 6) ∧
      source.position 400 = source.position 9 ∧
      source.lineText? 2 = some ['/', '/', ' ', 'é'] ∧
      source.lineText? 3 = some [] ∧ source.lineText? 4 = none := by
  intro text source
  have hsize : text.utf8ByteSize < Span.limit - 1 := by decide
  obtain ⟨hposition, -, hend, -, -, hlines⟩ := lines_scanned "k.okl" text hsize
  refine ⟨hsize, ?_, ?_, hend 400 (by decide), ?_, ?_, ?_⟩
  · exact hposition "x\n// é".toList "\r\n".toList 7 (by decide) (by decide)
  · exact hposition "x\n// é\r".toList "\n".toList 8 (by decide) (by decide)
  · exact (hlines 1).trans (by decide)
  · exact (hlines 2).trans (by decide)
  · exact (hlines 3).trans (by decide)

end KernelCheck
