import KernelCheck.Json.Printer
import KernelCheck.Proofs.Json.Reading

/-!
# What is printed is a text of the value

The printer lays a value out over lines, and escapes what may not stand in a string.  Both
leave a text of the value in the sense of RFC 8259.

1. `exists_pieces` — each character of a string is written as one piece, which denotes that
   character.
2. Rows of tokens are put together with `Token.Spelled.append`, and blanks in front change
   nothing.
3. `Json.isTextOf_pretty` — the printer goes through a value as its tokens do.
-/

namespace KernelCheck

/-! ## Numbers -/

namespace NumberLiteral

/-- The digits of a number have its value. -/
theorem digitsValue_toDigits (k : Nat) : digitsValue (Nat.toDigits 10 k) = k :=
  Nat.ofDigitChars_ten_toDigits

/-- A number has at least one digit. -/
theorem toDigits_ne_nil (k : Nat) : Nat.toDigits 10 k ≠ [] :=
  List.ne_nil_of_length_pos Nat.length_toDigits_pos

/-- Only zero is written with a zero in front. -/
theorem eq_zero_of_head?_toDigits (k : Nat) (h : (Nat.toDigits 10 k).head? = some '0') :
    k = 0 := by
  induction k using Nat.strongRecOn with
  | ind k ih =>
      rcases Nat.lt_or_ge k 10 with hk | hk
      · interval_cases k <;> first | rfl | cases h
      · rw [Nat.toDigits_of_base_le (by decide) hk,
          List.head?_append_of_ne_nil _ (toDigits_ne_nil _)] at h
        have hzero : k / 10 = 0 := ih (k / 10) (by omega) h
        omega

/-- A natural number is written as a number text. -/
theorem text_ofNat (k : Nat) : NumberText (ofNat k) (ofNat k).chars := by
  have hdigits : IsDigits (Nat.toDigits 10 k) :=
    ⟨toDigits_ne_nil k, fun _ hc => Nat.isDigit_of_mem_toDigits (by decide) (by decide) hc⟩
  have hleading : (Nat.toDigits 10 k).head? = some '0' → Nat.toDigits 10 k = ['0'] := by
    intro h
    rw [eq_zero_of_head?_toDigits k h]
    rfl
  have htext : NumberText (ofNat k) ([] ++ (Nat.toDigits 10 k ++ ([] ++ []))) :=
    .intro hdigits hleading .none .none
  have hchars : (ofNat k).chars = [] ++ (Nat.toDigits 10 k ++ ([] ++ [])) := by
    simp [chars, ofNat]
  rw [hchars]
  exact htext

/-- The number text of a natural number stands for that number. -/
theorem toInt?_ofNat (k : Nat) : (ofNat k).toInt? = some (Int.ofNat k) := by
  simp [toInt?, ofNat, digitsValue_toDigits]

end NumberLiteral

/-! ## Strings -/

/-- The written digit stands for its value. -/
theorem isHexDigit_hexDigit {k : Nat} (h : k < 16) : IsHexDigit (Json.hexDigit k) k := by
  interval_cases k <;> exact .inl rfl

/-- A character is written as one piece that denotes it. -/
theorem exists_piece (c : Char) : ∃ piece, PieceText piece (Json.escapeChar c) ∧
    ∀ rest, StringPiece.chars? (piece :: rest) = (StringPiece.chars? rest).map (c :: ·) := by
  unfold Json.escapeChar
  split
  case h_8 hquote hbackslash _ _ _ _ _ =>
    split
    case isTrue hcontrol =>
      have hvalue : 16 * (16 * (16 * 0 + 0) + c.toNat / 16) + c.toNat % 16 = c.toNat := by omega
      have hpiece : PieceText (.unit c.toNat)
          ['\\', 'u', '0', '0', Json.hexDigit (c.toNat / 16), Json.hexDigit (c.toNat % 16)] := by
        have hunit := PieceText.unit (isHexDigit_hexDigit (k := 0) (by decide))
          (isHexDigit_hexDigit (k := 0) (by decide))
          (isHexDigit_hexDigit (k := c.toNat / 16) (by omega))
          (isHexDigit_hexDigit (k := c.toNat % 16) (by omega))
        rw [hvalue] at hunit
        exact hunit
      have hhigh : StringPiece.isHigh c.toNat = false := by
        simp only [StringPiece.isHigh, Bool.and_eq_false_iff, decide_eq_false_iff_not]
        omega
      have hlow : StringPiece.isLow c.toNat = false := by
        simp only [StringPiece.isLow, Bool.and_eq_false_iff, decide_eq_false_iff_not]
        omega
      refine ⟨.unit c.toNat, hpiece, fun rest => ?_⟩
      rw [StringPiece.chars?.eq_def]
      simp [hhigh, hlow]
    case isFalse hcontrol =>
      exact ⟨.char c, .plain (Nat.not_lt.mp hcontrol) hquote hbackslash, fun _ => rfl⟩
  all_goals exact ⟨.char _, .escape (by simp [shortEscapes]), fun _ => rfl⟩

/-- Every text is escaped character by character, and the pieces stand for it. -/
theorem exists_pieces (cs : List Char) : ∃ pieces,
    List.Forall₂ PieceText pieces (cs.map Json.escapeChar) ∧
      StringPiece.chars? pieces = some cs := by
  induction cs with
  | nil => exact ⟨[], .nil, rfl⟩
  | cons c rest ih =>
      obtain ⟨piece, hpiece, hchars⟩ := exists_piece c
      obtain ⟨pieces, hpieces, hrest⟩ := ih
      refine ⟨piece :: pieces, .cons hpiece hpieces, ?_⟩
      rw [hchars, hrest]
      rfl

/-- A string is written as one token, also if it denotes no text. -/
theorem lexeme_quote (text : Option String) : (Token.string text).Lexeme (Json.quote text) := by
  cases text with
  | none =>
      have hunit : PieceText (.unit 0xd800) ['\\', 'u', 'd', '8', '0', '0'] :=
        .unit (k := 13) (l := 8) (m := 0) (n := 0) (.inl rfl) (.inl rfl) (.inl rfl) (.inl rfl)
      exact .string (.cons hunit .nil)
  | some s =>
      obtain ⟨pieces, hpieces, hchars⟩ := exists_pieces s.toList
      have htext : StringPiece.text? pieces = some s := by
        rw [StringPiece.text?, hchars, Option.map_some, String.ofList_toList]
      have hlexeme := Token.Lexeme.string hpieces
      rw [htext, ← List.flatMap_def] at hlexeme
      exact hlexeme

namespace Token.Spelled

/-! ## Rows of tokens -/

variable {ts us : List Token} {cs ds blanks : List Char}

/-- Blanks may stand in front of a text that spells tokens. -/
theorem blanks_append (hblanks : AreBlank blanks) (h : Spelled ts cs) :
    Spelled ts (blanks ++ cs) := by
  have happend : ∀ {more : List Char}, AreBlank more → AreBlank (blanks ++ more) := by
    intro more hmore c hc
    rcases List.mem_append.mp hc with hc | hc
    · exact hblanks c hc
    · exact hmore c hc
  cases h with
  | nil hmore => exact .nil (happend hmore)
  | cons hmore hlexeme hrest =>
      rw [← List.append_assoc]
      exact .cons (happend hmore) hlexeme hrest

/-- Two texts that spell tokens spell them one after the other. -/
theorem append (h : Spelled ts cs) (h' : Spelled us ds) : Spelled (ts ++ us) (cs ++ ds) := by
  induction h with
  | nil hblanks => exact h'.blanks_append hblanks
  | cons hblanks hlexeme _ ih =>
      rw [List.append_assoc, List.append_assoc]
      exact .cons hblanks hlexeme ih

/-- The lexeme of a token spells it. -/
theorem token {t : Token} (h : t.Lexeme cs) : Spelled [t] cs := by
  have hrow : Spelled [t] ([] ++ (cs ++ [])) :=
    .cons (fun _ hc => nomatch hc) h (.nil fun _ hc => nomatch hc)
  simpa using hrow

end Token.Spelled

namespace Json

/-! ## Values -/

mutual

/-- The numbers in a value. -/
def numbers : Json → List NumberLiteral
  | null | bool _ | string _ => []
  | number literal => [literal]
  | array items => itemNumbers items
  | object members => memberNumbers members

/-- The numbers in several items. -/
def itemNumbers : List Json → List NumberLiteral
  | [] => []
  | v :: rest => v.numbers ++ itemNumbers rest

/-- The numbers in several members. -/
def memberNumbers : List (Option String × Json) → List NumberLiteral
  | [] => []
  | (_, v) :: rest => v.numbers ++ memberNumbers rest

end

/-- The literals are written as numbers. -/
def AreNumbers (literals : List NumberLiteral) : Prop := ∀ n ∈ literals, NumberText n n.chars

/-- A new line with its indent is blank. -/
theorem areBlank_newline (level : Nat) : Token.AreBlank (newline level) := by
  intro c hc
  simp only [newline, List.mem_cons, List.mem_replicate] at hc
  rcases hc with rfl | ⟨-, rfl⟩ <;> simp

/-- A key is written with its colon. -/
theorem spelled_key (key : Option String) :
    Token.Spelled [.string key, .colon] (quote key ++ [':', ' ']) := by
  have hcolon : Token.Spelled [.colon] ([':'] ++ [' ']) :=
    (Token.Spelled.token .colon).append (.nil (by simp [Token.AreBlank]))
  exact (Token.Spelled.token (lexeme_quote key)).append hcolon

/-- Two lists of numbers have proper texts if both have. -/
theorem areNumbers_append {ms ns : List NumberLiteral} :
    AreNumbers (ms ++ ns) ↔ AreNumbers ms ∧ AreNumbers ns :=
  List.forall_mem_append

mutual

/-- **The printed form of a value** is a text of it, at each level of indentation. -/
theorem spelled_prettyChars : ∀ (level : Nat) (v : Json), AreNumbers v.numbers →
    Token.Spelled v.tokens (prettyChars level v)
  | _, .null, _ => .token .null
  | _, .bool true, _ => .token .yes
  | _, .bool false, _ => .token .no
  | _, .number literal, h => .token (.number (h literal List.mem_cons_self))
  | _, .string text, _ => .token (lexeme_quote text)
  | _, .array [], _ => (Token.Spelled.token .leftBracket).append (.token .rightBracket)
  | _, .object [], _ => (Token.Spelled.token .leftBrace).append (.token .rightBrace)
  | level, .array (v :: rest), h => by
      have hnumbers : AreNumbers v.numbers ∧ AreNumbers (itemNumbers rest) :=
        areNumbers_append.mp h
      have hfirst := (spelled_prettyChars (level + 1) v hnumbers.1).blanks_append
        (areBlank_newline (level + 1))
      have hrest := spelled_prettyItems (level + 1) rest hnumbers.2
      have hclose := (Token.Spelled.token .rightBracket).blanks_append (areBlank_newline level)
      have hrow := (Token.Spelled.token .leftBracket).append
        (hfirst.append (hrest.append hclose))
      simpa [tokens, prettyChars] using hrow
  | level, .object ((key, v) :: rest), h => by
      have hnumbers : AreNumbers v.numbers ∧ AreNumbers (memberNumbers rest) :=
        areNumbers_append.mp h
      have hkey := (spelled_key key).blanks_append (areBlank_newline (level + 1))
      have hfirst := spelled_prettyChars (level + 1) v hnumbers.1
      have hrest := spelled_prettyMembers (level + 1) rest hnumbers.2
      have hclose := (Token.Spelled.token .rightBrace).blanks_append (areBlank_newline level)
      have hrow := (Token.Spelled.token .leftBrace).append
        (hkey.append (hfirst.append (hrest.append hclose)))
      simpa [tokens, prettyChars] using hrow

/-- The same for the items of an array. -/
theorem spelled_prettyItems : ∀ (level : Nat) (vs : List Json), AreNumbers (itemNumbers vs) →
    Token.Spelled (itemTokens vs) (prettyItems level vs)
  | _, [], _ => .nil fun _ hc => nomatch hc
  | level, v :: rest, h => by
      have hnumbers : AreNumbers v.numbers ∧ AreNumbers (itemNumbers rest) :=
        areNumbers_append.mp h
      have hfirst := (spelled_prettyChars level v hnumbers.1).blanks_append
        (areBlank_newline level)
      have hrow := (Token.Spelled.token .comma).append
        (hfirst.append (spelled_prettyItems level rest hnumbers.2))
      simpa [itemTokens, prettyItems] using hrow

/-- The same for the members of an object. -/
theorem spelled_prettyMembers : ∀ (level : Nat) (ms : List (Option String × Json)),
    AreNumbers (memberNumbers ms) → Token.Spelled (memberTokens ms) (prettyMembers level ms)
  | _, [], _ => .nil fun _ hc => nomatch hc
  | level, (key, v) :: rest, h => by
      have hnumbers : AreNumbers v.numbers ∧ AreNumbers (memberNumbers rest) :=
        areNumbers_append.mp h
      have hkey := (spelled_key key).blanks_append (areBlank_newline level)
      have hfirst := spelled_prettyChars level v hnumbers.1
      have hrow := (Token.Spelled.token .comma).append
        (hkey.append (hfirst.append (spelled_prettyMembers level rest hnumbers.2)))
      simpa [memberTokens, prettyMembers] using hrow

end

/-- **A printed value** is a text of that value. -/
theorem isTextOf_pretty {v : Json} (h : AreNumbers v.numbers) : IsTextOf v.pretty.toList v := by
  rw [pretty, String.toList_ofList]
  exact spelled_prettyChars 0 v h

end Json

end KernelCheck
