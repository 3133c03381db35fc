import KernelCheck.Proofs.Output

/-!
# Colours

A terminal that shows colours is sent the same text as one that does not, with a sequence in
front of each piece that has a style and another one behind it.  No text holds the character
that a sequence starts with, so a reader can tell the sequences from the text.

1. `Sign.flatMap_text_read` — a reader of signs passes over nothing.
2. `Sign.read_append` and `Sign.read_text` — what it makes of a text without sequences, and of a
   sequence.
3. `Piece.signs_renderAll` — so the pieces of a layout can be read off what is written.
4. `Layout.escapeFree_diagnostic`, `Layout.escapeFree_summary` — a layout brings in no sequences
   of its own.

`colors_are_sequences` says what colours change, and what they do not.
-/

namespace KernelCheck

/-! ## Texts -/

/-- The text does not hold the character that sequences start with. -/
def EscapeFree (text : String) : Prop := '\x1b' ∉ text.toList

instance (text : String) : Decidable (EscapeFree text) :=
  inferInstanceAs (Decidable ('\x1b' ∉ text.toList))

/-- Two texts together are free of sequences if each of them is. -/
@[simp] theorem escapeFree_append {a b : String} :
    EscapeFree (a ++ b) ↔ EscapeFree a ∧ EscapeFree b := by
  simp [EscapeFree]

/-- A text that is put into another one stays as it is. -/
@[simp] theorem escapeFree_toString {text : String} :
    EscapeFree (toString text) ↔ EscapeFree text :=
  Iff.rfl

/-- A number is written in digits, and none of them starts a sequence. -/
@[simp] theorem escapeFree_repr (n : Nat) : EscapeFree n.repr := by
  rw [EscapeFree, Nat.toList_repr]
  intro h
  exact absurd (Nat.isDigit_of_mem_toDigits (by decide) (by decide) h) (by decide)

/-! ## Signs -/

/-- What a terminal is sent: a character, or a sequence that starts or ends a style. -/
inductive Sign where
  | char (c : Char)
  | start (style : Style)
  | reset
  deriving DecidableEq

namespace Sign

/-- The sign as it is sent. -/
def text : Sign → List Char
  | char c => [c]
  | start style => style.start.toList
  | reset => Style.reset.toList

/-- The sequences. -/
def sequences : List Sign :=
  [.start .error, .start .warning, .start .help, .start .emphasis, .start .context, .reset]

/-- The sequence that a text starts with. -/
def sequence? (cs : List Char) : Option Sign := sequences.find? (·.text.isPrefixOf cs)

/-- The signs of a text behind characters that still belong to a sequence. -/
def read : Nat → List Char → List Sign
  | _, [] => []
  | skip + 1, _ :: rest => read skip rest
  | 0, c :: rest =>
    match sequence? (c :: rest) with
    | some sign => sign :: read (sign.text.length - 1) rest
    | none => char c :: read 0 rest

/-- The signs of a text. -/
def ofText (text : String) : List Sign := read 0 text.toList

/-- The character, if the sign is one. -/
def char? : Sign → Option Char
  | char c => some c
  | start _ | reset => none

/-- A text without the sequences in it. -/
def withoutSequences (text : String) : String := String.ofList ((ofText text).filterMap char?)

/-- The sequences in a text, one after the other. -/
def sequencesOf (text : String) : List Sign := (ofText text).filter (·.char?.isNone)

/-- The sequence that is found is one of the sequences, and the text starts with it. -/
theorem mem_of_sequence? {sign : Sign} {cs : List Char} (h : sequence? cs = some sign) :
    sign ∈ sequences ∧ sign.text <+: cs := by
  unfold sequence? at h
  refine ⟨List.mem_of_find?_eq_some h, ?_⟩
  have hstarts := List.find?_some h
  exact List.isPrefixOf_iff_prefix.mp hstarts

/-- A reader passes over nothing. -/
theorem flatMap_text_read (cs : List Char) (skip : Nat) :
    (read skip cs).flatMap text = cs.drop skip := by
  have hne : ∀ sign ∈ sequences, sign.text ≠ [] := by decide
  induction cs generalizing skip with
  | nil => simp [read]
  | cons c rest ih =>
      cases skip with
      | succ skip => exact ih skip
      | zero =>
          rw [read]
          split
          case h_1 sign hsign =>
            obtain ⟨hmem, hstarts⟩ := mem_of_sequence? hsign
            obtain ⟨first, more, htext⟩ := List.exists_cons_of_ne_nil (hne sign hmem)
            rw [htext, List.cons_prefix_cons] at hstarts
            obtain ⟨rfl, behind, rfl⟩ := hstarts
            rw [List.flatMap_cons, ih, htext, List.length_cons, Nat.add_sub_cancel,
              List.drop_left]
            rfl
          case h_2 => rw [List.flatMap_cons, ih]; rfl

/-- The rest of a sequence is passed over. -/
theorem read_length (skipped rest : List Char) :
    read skipped.length (skipped ++ rest) = read 0 rest := by
  induction skipped with
  | nil => rfl
  | cons c skipped ih => exact ih

/-- A text that starts with another character starts with no sequence. -/
theorem sequence?_cons {c : Char} (hc : c ≠ '\x1b') (rest : List Char) :
    sequence? (c :: rest) = none := by
  have hfirst : ∀ sign ∈ sequences, sign.text.head? = some '\x1b' := by decide
  rw [sequence?, List.find?_eq_none]
  intro sign hsign hstarts
  obtain ⟨more, hmore⟩ := List.isPrefixOf_iff_prefix.mp hstarts
  have hhead := congrArg List.head? hmore
  rw [List.head?_append, hfirst sign hsign] at hhead
  exact hc (Option.some.inj hhead).symm

/-- A text without sequences is read character by character. -/
theorem read_append {cs : List Char} (hcs : '\x1b' ∉ cs) (rest : List Char) :
    read 0 (cs ++ rest) = cs.map char ++ read 0 rest := by
  induction cs with
  | nil => rfl
  | cons c cs ih =>
      rw [List.mem_cons, not_or] at hcs
      rw [List.cons_append, read, sequence?_cons (Ne.symm hcs.1), ih hcs.2]
      rfl

/-- Characters are read off as they are. -/
theorem filterMap_char?_map (cs : List Char) : (cs.map char).filterMap char? = cs := by
  rw [List.filterMap_map]
  exact List.filterMap_some

/-- A text that is free of sequences loses nothing. -/
theorem withoutSequences_of_escapeFree {text : String} (h : EscapeFree text) :
    withoutSequences text = text := by
  have hread := read_append h []
  rw [List.append_nil] at hread
  rw [withoutSequences, ofText, hread, List.filterMap_append, filterMap_char?_map]
  simp [read]

/-- No sequence is the beginning of another one. -/
theorem sequence?_text {sign : Sign} (hsign : sign ∈ sequences) (rest : List Char) :
    sequence? (sign.text ++ rest) = some sign := by
  simp only [sequences, List.mem_cons, List.not_mem_nil, or_false] at hsign
  rcases hsign with rfl | rfl | rfl | rfl | rfl | rfl <;> rfl

/-- A sequence is read as a whole. -/
theorem read_text {sign : Sign} (hsign : sign ∈ sequences) (rest : List Char) :
    read 0 (sign.text ++ rest) = sign :: read 0 rest := by
  have hstart := sequence?_text hsign rest
  have hne : ∀ sign ∈ sequences, sign.text ≠ [] := by decide
  cases htext : sign.text with
  | nil => exact absurd htext (hne sign hsign)
  | cons c more =>
      rw [htext, List.cons_append] at hstart
      rw [List.cons_append, read, hstart]
      simp only [htext, List.length_cons, Nat.add_sub_cancel, read_length]

end Sign

/-! ## Pieces -/

namespace Piece

/-- The text of a piece. -/
def text : Piece → String
  | plain text | styled _ text => text

/-- The style of a piece, if it has one. -/
def style? : Piece → Option Style
  | plain _ => none
  | styled style _ => some style

/-- The signs that a piece is made of where colours are shown. -/
def signs : Piece → List Sign
  | plain text => text.toList.map .char
  | styled style text => .start style :: (text.toList.map .char ++ [.reset])

/-- Without colours the pieces of a layout are written one after the other. -/
theorem toList_renderAll_false (pieces : List Piece) :
    (renderAll false pieces).toList = pieces.flatMap (·.text.toList) := by
  induction pieces with
  | nil => rfl
  | cons p rest ih =>
      have hp : p.render false = p.text := by cases p <;> rfl
      rw [renderAll, List.map_cons, String.join_cons, String.toList_append, hp, ← renderAll, ih,
        List.flatMap_cons]

/-- A coloured piece is read as its signs, whatever follows it. -/
theorem read_render {p : Piece} (hp : EscapeFree p.text) (rest : List Char) :
    Sign.read 0 ((p.render true).toList ++ rest) = p.signs ++ Sign.read 0 rest := by
  cases p with
  | plain content => exact Sign.read_append hp rest
  | styled style content =>
      have hstyle : .start style ∈ Sign.sequences := by cases style <;> decide
      have hpiece : ((styled style content).render true).toList ++ rest =
          (Sign.start style).text ++ (content.toList ++ (Sign.reset.text ++ rest)) := by
        simp [render, Sign.text]
      have hcontent : '\x1b' ∉ content.toList := hp
      rw [hpiece, Sign.read_text hstyle, Sign.read_append hcontent, Sign.read_text (by decide)]
      simp [signs]

/-- **The pieces of a layout can be read off** what is written with colours. -/
theorem signs_renderAll {pieces : List Piece} (h : ∀ p ∈ pieces, EscapeFree p.text) :
    Sign.ofText (renderAll true pieces) = pieces.flatMap signs := by
  unfold Sign.ofText
  induction pieces with
  | nil => rfl
  | cons p rest ih =>
      obtain ⟨hp, hrest⟩ := List.forall_mem_cons.mp h
      rw [renderAll, List.map_cons, String.join_cons, String.toList_append, read_render hp,
        ← renderAll, ih hrest, List.flatMap_cons]

/-- The characters of a piece are its text. -/
theorem filterMap_char?_signs (p : Piece) : p.signs.filterMap Sign.char? = p.text.toList := by
  cases p with
  | plain content => exact Sign.filterMap_char?_map content.toList
  | styled style content =>
      rw [signs, List.filterMap_cons_none rfl, List.filterMap_append, Sign.filterMap_char?_map]
      exact List.append_nil _

/-- The sequences of a piece start its style and end it. -/
theorem filter_signs (p : Piece) :
    p.signs.filter (·.char?.isNone) =
      p.style?.toList.flatMap fun style => [.start style, .reset] := by
  have hchars : ∀ cs : List Char, (cs.map Sign.char).filter (·.char?.isNone) = [] := by
    intro cs
    simp [List.filter_eq_nil_iff, Sign.char?]
  cases p with
  | plain content => exact hchars content.toList
  | styled style content =>
      rw [signs, List.filter_cons_of_pos rfl, List.filter_append, hchars]
      rfl

/-- Without its sequences a coloured layout is the plain one. -/
theorem withoutSequences_renderAll {pieces : List Piece} (h : ∀ p ∈ pieces, EscapeFree p.text) :
    Sign.withoutSequences (renderAll true pieces) = renderAll false pieces := by
  rw [Sign.withoutSequences, signs_renderAll h, List.filterMap_flatMap]
  simp only [filterMap_char?_signs]
  rw [← toList_renderAll_false, String.ofList_toList]

/-- The sequences of a coloured layout start and end the styles of its pieces, in order. -/
theorem sequencesOf_renderAll {pieces : List Piece} (h : ∀ p ∈ pieces, EscapeFree p.text) :
    Sign.sequencesOf (renderAll true pieces) =
      (pieces.filterMap style?).flatMap fun style => [.start style, .reset] := by
  rw [Sign.sequencesOf, signs_renderAll h, List.filter_flatMap]
  simp only [filter_signs]
  rw [List.filterMap_eq_flatMap_toList, List.flatMap_assoc]

/-- A plain layout has no sequences if its pieces have none. -/
theorem escapeFree_renderAll {pieces : List Piece} (h : ∀ p ∈ pieces, EscapeFree p.text) :
    EscapeFree (renderAll false pieces) := by
  rw [EscapeFree, toList_renderAll_false, List.mem_flatMap]
  rintro ⟨p, hp, hmem⟩
  exact h p hp hmem

end Piece

/-! ## Layouts -/

/-- No text of the diagnostic holds the character that sequences start with. -/
structure Diagnostic.IsEscapeFree (d : Diagnostic) : Prop where
  message : EscapeFree d.message
  labels : ∀ l ∈ d.labels, EscapeFree l.message
  notes : ∀ note ∈ d.notes, EscapeFree note
  suggestions : ∀ text ∈ d.suggestions, EscapeFree text

/-- Neither the path nor the text of the source holds the character that sequences start with. -/
structure Source.IsEscapeFree (s : Source) : Prop where
  path : EscapeFree s.path
  chars : '\x1b' ∉ s.chars

namespace SourceText

variable {cs rest xs : List Char} {n : Nat}

/-- What is left behind a number of bytes is an end of the text. -/
theorem suffix_of_dropBytes? (h : dropBytes? n cs = some rest) : rest <:+ cs := by
  fun_induction dropBytes? n cs with
  | case1 => cases h; exact List.suffix_rfl
  | case2 => cases h
  | case3 n c cs hsize ih => exact (ih h).trans (List.suffix_cons c cs)
  | case4 => cases h

/-- What stands in front of a number of bytes is a start of the text. -/
theorem prefix_of_takeBytes? (h : takeBytes? n cs = some xs) : xs <+: cs := by
  fun_induction takeBytes? n cs generalizing xs with
  | case1 => cases h; exact List.nil_prefix
  | case2 => cases h
  | case3 n c cs hsize ih =>
      obtain ⟨ys, hys, rfl⟩ := Option.map_eq_some_iff.mp h
      exact List.prefix_cons_inj c |>.mpr (ih hys)
  | case4 => cases h

/-- The characters of a slice are characters of the text. -/
theorem mem_of_slice? {start stop : Nat} (h : slice? cs start stop = some xs) {c : Char}
    (hc : c ∈ xs) : c ∈ cs := by
  obtain ⟨rest, hrest, hxs⟩ := Option.bind_eq_some_iff.mp h
  exact (suffix_of_dropBytes? hrest).subset ((prefix_of_takeBytes? hxs).subset hc)

end SourceText

/-- What is shown of a line stands in the source. -/
theorem Source.mem_of_lineText? {s : Source} {line : Nat} {shown : List Char}
    (h : s.lineText? line = some shown) {c : Char} (hc : c ∈ shown) : c ∈ s.chars := by
  unfold lineText? at h
  obtain ⟨start, -, h⟩ := Option.bind_eq_some_iff.mp h
  obtain ⟨piece, hpiece, h⟩ := Option.bind_eq_some_iff.mp h
  cases h
  have htrimmed : c ∈ piece.reverse.dropWhile SourceText.isLineEnd := List.mem_reverse.mp hc
  exact SourceText.mem_of_slice? hpiece
    (List.mem_reverse.mp ((List.dropWhile_sublist _).mem htrimmed))

namespace Layout

/-- A row of other characters has no sequence. -/
theorem escapeFree_row {c : Char} (hc : c ≠ '\x1b') (n : Nat) : EscapeFree (row n c) := by
  rw [EscapeFree, row, String.toList_ofList]
  intro hmem
  exact hc (List.eq_of_mem_replicate hmem).symm

/-- The header of a diagnostic brings in no sequence. -/
theorem escapeFree_header {d : Diagnostic} (hd : d.IsEscapeFree) :
    ∀ p ∈ header d, EscapeFree p.text := by
  have hseverity : EscapeFree d.severity.text := by cases d.severity <;> decide
  simp +decide [header, Piece.text, Code.text, hseverity, hd.message]

/-- A label by its offsets brings in no sequence but those of its message. -/
theorem escapeFree_bareLabel {l : Label} (hl : EscapeFree l.message) :
    ∀ p ∈ bareLabel l, EscapeFree p.text := by
  have harrow : EscapeFree l.arrow := by
    unfold Label.arrow
    split <;> decide
  simp +decide [bareLabel, Piece.text, Span.text, harrow, hl]

/-- A label with its line brings in no sequence but those of the source and of its message. -/
theorem escapeFree_snippet {source : Source} (hsource : source.IsEscapeFree) {l : Label}
    (hl : EscapeFree l.message) : ∀ p ∈ snippet source l, EscapeFree p.text := by
  have hmark : EscapeFree (row (underlineWidth l.span.length
      ((source.spanLine? l.span).getD []) (source.spanStart l.span).2)
        (if l.isPrimary then '^' else '-')) := by
    apply escapeFree_row
    split <;> decide
  have hshown : EscapeFree (String.ofList ((source.spanLine? l.span).getD [])) := by
    rw [EscapeFree, String.toList_ofList]
    intro hmem
    cases hline : source.spanLine? l.span with
    | none => rw [hline] at hmem; cases hmem
    | some shown =>
        rw [hline] at hmem
        exact hsource.chars (Source.mem_of_lineText? hline hmem)
  have hblank : ∀ n, EscapeFree (row n ' ') := escapeFree_row (by decide)
  simp +decide [snippet, underlined, Piece.text, hmark, hshown, hblank, hsource.path, hl]

/-- A label brings in no sequence, with or without the source. -/
theorem escapeFree_label {source : Option Source} (hsource : ∀ s ∈ source, s.IsEscapeFree)
    {l : Label} (hl : EscapeFree l.message) : ∀ p ∈ label source l, EscapeFree p.text := by
  cases source with
  | none => exact escapeFree_bareLabel hl
  | some s => exact escapeFree_snippet (hsource s rfl) hl

/-- A note or suggestion brings in no sequence of its own. -/
theorem escapeFree_trailer {word content : String} (style : Style) (hword : EscapeFree word)
    (hcontent : EscapeFree content) : ∀ p ∈ trailer word style content, EscapeFree p.text := by
  simp +decide [trailer, Piece.text, hword, hcontent]

/-- A diagnostic is laid out with its own texts, those of the source, and no sequences. -/
theorem escapeFree_diagnostic {source : Option Source} (hsource : ∀ s ∈ source, s.IsEscapeFree)
    {d : Diagnostic} (hd : d.IsEscapeFree) :
    ∀ p ∈ diagnostic source d, EscapeFree p.text := by
  intro p hp
  simp only [diagnostic, around, List.mem_append, List.mem_flatMap, List.mem_singleton] at hp
  rcases hp with (((hp | ⟨l, hl, hp⟩) | ⟨note, hnote, hp⟩) | ⟨text, htext, hp⟩) | rfl
  · exact escapeFree_header hd p hp
  · exact escapeFree_label hsource (hd.labels l hl) p hp
  · exact escapeFree_trailer .emphasis (by decide) (hd.notes note hnote) p hp
  · exact escapeFree_trailer .help (by decide) (hd.suggestions text htext) p hp
  · decide

/-- A number of things is told without a sequence. -/
theorem escapeFree_count (n : Nat) {thing : String} (hthing : EscapeFree thing) :
    EscapeFree (count n thing) := by
  unfold count
  split <;> simp +decide [hthing]

/-- The closing line has no sequence. -/
theorem escapeFree_summary (errors warnings : Nat) :
    ∀ p ∈ summary errors warnings, EscapeFree p.text := by
  have hwarnings : EscapeFree (count warnings "warning") := escapeFree_count warnings (by decide)
  have herrors : EscapeFree (if errors = 1 then "previous error"
      else s!"{errors} previous errors") := by
    split <;> simp +decide
  unfold summary
  generalize (if errors = 1 then "previous error" else s!"{errors} previous errors") = previous
    at herrors
  by_cases hnone : errors = 0 <;> by_cases hquiet : warnings = 0 <;>
    simp +decide [Piece.text, hnone, hquiet, hwarnings, herrors]

/-- Everything that is written about some diagnostics: each of them, and the closing line. -/
def report (source : Option Source) (ds : List Diagnostic) (errors warnings : Nat) : List Piece :=
  ds.flatMap (diagnostic source) ++ summary errors warnings

/-- A whole report has no sequence but those of the source and the diagnostics. -/
theorem escapeFree_report {source : Option Source} (hsource : ∀ s ∈ source, s.IsEscapeFree)
    {ds : List Diagnostic} (hds : ∀ d ∈ ds, d.IsEscapeFree) (errors warnings : Nat) :
    ∀ p ∈ report source ds errors warnings, EscapeFree p.text := by
  intro p hp
  rcases List.mem_append.mp hp with hp | hp
  · obtain ⟨d, hd, hp⟩ := List.mem_flatMap.mp hp
    exact escapeFree_diagnostic hsource (hds d hd) p hp
  · exact escapeFree_summary errors warnings p hp

end Layout

/-- The diagnostics and the closing line are rendered as one layout. -/
theorem Printer.written_eq_renderAll (t : Terminal) (ds : List Diagnostic) (errors warnings : Nat) :
    (((start t).emitAll ds).close errors warnings).written =
      Piece.renderAll t.colored (Layout.report t.source ds errors warnings) := by
  rw [close, emitAll_eq, put_put]
  exact String.empty_append

/-- **Colours are sequences around pieces of the same text.**  Where no text holds the character
that sequences start with, what is written without colours is what is written with them once the
sequences are taken out, and it holds none itself.  With colours each sequence that starts a style
is followed by one that ends it, before the next one starts.  So neither the colour mode nor what
the output goes to has a say in the text of a report. -/
theorem colors_are_sequences (source : Option Source) (ds : List Diagnostic)
    (errors warnings : Nat) (hsource : ∀ s ∈ source, s.IsEscapeFree)
    (hds : ∀ d ∈ ds, d.IsEscapeFree) :
    let written := fun colored =>
      (((Printer.start ⟨colored, source⟩).emitAll ds).close errors warnings).written
    Sign.withoutSequences (written true) = written false ∧
      EscapeFree (written false) ∧
      (∃ styles : List Style, Sign.sequencesOf (written true) =
        styles.flatMap fun style => [.start style, .reset]) ∧
      ∀ (mode : ColorMode) (isTerminal : Bool),
        Sign.withoutSequences (written (mode.usesColor isTerminal)) = written false := by
  intro written
  have hwritten : ∀ colored, written colored =
      Piece.renderAll colored (Layout.report source ds errors warnings) :=
    fun colored => Printer.written_eq_renderAll ⟨colored, source⟩ ds errors warnings
  have hpieces := Layout.escapeFree_report hsource hds errors warnings
  have htext : Sign.withoutSequences (written true) = written false := by
    rw [hwritten, hwritten]
    exact Piece.withoutSequences_renderAll hpieces
  have hplain : EscapeFree (written false) := by
    rw [hwritten]
    exact Piece.escapeFree_renderAll hpieces
  refine ⟨htext, hplain, ?_, ?_⟩
  · rw [hwritten]
    exact ⟨_, Piece.sequencesOf_renderAll hpieces⟩
  · intro mode isTerminal
    cases mode.usesColor isTerminal with
    | true => exact htext
    | false => exact Sign.withoutSequences_of_escapeFree hplain

/-- A diagnostic with a label and a note. -/
def Diagnostic.breakSample : Diagnostic :=
  ⟨.illegalBreak, .error, "m", [⟨⟨2, 7⟩, "here", true⟩], ["n"], []⟩

/-- The text that is left is the one that a terminal without colours shows. -/
theorem colors_are_sequences_breakSample :
    let source := Source.ofText "k.okl" "  break;\n"
    let written := fun colored =>
      (((Printer.start ⟨colored, some source⟩).emitAll [Diagnostic.breakSample]).close 1 0).written
    (∀ s ∈ some source, s.IsEscapeFree) ∧
      (∀ d ∈ [Diagnostic.breakSample], d.IsEscapeFree) ∧
      Sign.withoutSequences (written true) =
        "error[E5001]: m\n --> k.okl:1:3\n  |\n1 |   break;\n  |   ^^^^^ here\n  = note: n\n\n" ++
          "error: aborting due to previous error\n" := by
  intro source written
  have hsource : ∀ s ∈ some source, s.IsEscapeFree := by
    intro s hs
    obtain rfl := Option.some.inj hs
    exact ⟨by decide, by decide⟩
  have hds : ∀ d ∈ [Diagnostic.breakSample], d.IsEscapeFree := by
    intro d hd
    obtain rfl := List.mem_singleton.mp hd
    exact ⟨by decide, by decide, by decide, by decide⟩
  refine ⟨hsource, hds, ?_⟩
  exact (colors_are_sequences (some source) [Diagnostic.breakSample] 1 0 hsource hds).1.trans
    (by decide +kernel)

end KernelCheck
