import KernelCheck.Proofs.Json.Grammar
import Mathlib.Data.List.Chain
import Mathlib.Tactic.IntervalCases

/-!
# Every text of a value is read as that value

The reader is two automata, one for characters and one for tokens, and neither looks ahead.

1. `NumberText.chars?` — a number is recognised however it is written.
2. `Scanner.scan_lexeme` — the scanner gets through a token, from between two tokens.  A word or
   a number is noted only with the character behind it, so the scanner is described by the
   tokens that it has once the last one is closed (`Scanner.flush?`).
3. `Scanner.scan_spelled` — and through a row of tokens, of which no two words or numbers
   follow each other.
4. `JsonReader.read_tokens` — the tokens of a value bring the reader from where a value is due
   to behind it.

`Json.parse?_of_isTextOf` puts them together.  So no text belongs to two values.
-/

namespace KernelCheck

/-! ## Runs -/

section

variable {σ α : Type} {step : σ → α → Option σ} {s s' : σ} {x : α} {xs : List α}

/-- A run goes on from where its first step leads. -/
theorem foldlM_cons_of_some (h : step s x = some s') (ys : List α) :
    (x :: ys).foldlM step s = ys.foldlM step s' := by
  rw [List.foldlM_cons, h, Option.bind_eq_bind, Option.bind_some]

/-- A run goes on from where its first part leads. -/
theorem foldlM_append_of_some (h : xs.foldlM step s = some s') (ys : List α) :
    (xs ++ ys).foldlM step s = ys.foldlM step s' := by
  rw [List.foldlM_append, h, Option.bind_eq_bind, Option.bind_some]

end

/-! ## Numbers -/

namespace NumberLiteral

/-- The first character, if there is one, is no digit. -/
def NoDigitAhead (cs : List Char) : Prop := ∀ c ∈ cs.head?, c.isDigit = false

/-- The digits in front of something else are taken. -/
theorem takeWhile_digits {digits rest : List Char} (hdigits : ∀ c ∈ digits, c.isDigit = true)
    (hrest : NoDigitAhead rest) : (digits ++ rest).takeWhile Char.isDigit = digits := by
  rw [List.takeWhile_append_of_pos hdigits]
  cases rest with
  | nil => simp
  | cons c rest => simp [hrest c rfl]

/-- What follows the digits is left. -/
theorem dropWhile_digits {digits rest : List Char} (hdigits : ∀ c ∈ digits, c.isDigit = true)
    (hrest : NoDigitAhead rest) : (digits ++ rest).dropWhile Char.isDigit = rest := by
  rw [List.dropWhile_append_of_pos hdigits]
  cases rest with
  | nil => simp
  | cons c rest => simp [hrest c rfl]

end NumberLiteral

open NumberLiteral

variable {cs digits : List Char} {exponent : Option (Bool × List Char)} {n : NumberLiteral}

/-- A digit is no other character. -/
theorem isDigit_ne {d c : Char} (hd : d.isDigit = true) (hc : c.isDigit = false) : d ≠ c := by
  rintro rfl
  rw [hd] at hc
  cases hc

/-- An exponent does not start with a digit. -/
theorem ExponentText.noDigitAhead (h : ExponentText exponent cs) : NoDigitAhead cs := by
  cases h with
  | none => exact fun _ hc => nomatch hc
  | unsigned he | plus he | minus he =>
      intro c hc
      obtain rfl := Option.some.inj hc
      rcases he with rfl | rfl <;> rfl

/-- An exponent is read back from its text. -/
theorem ExponentText.chars? (h : ExponentText exponent cs) :
    exponentOfChars? cs = some exponent := by
  cases h with
  | none => rfl
  | @unsigned e digits he h =>
      obtain ⟨hne, hall⟩ := h
      obtain ⟨d, rest, rfl⟩ := List.exists_cons_of_ne_nil hne
      have hd : d.isDigit = true := hall d List.mem_cons_self
      have hminus : d ≠ '-' := isDigit_ne hd rfl
      have hplus : d ≠ '+' := isDigit_ne hd rfl
      rcases he with rfl | rfl <;> simp_all [exponentOfChars?]
  | plus he h | minus he h =>
      obtain ⟨hne, hall⟩ := h
      rcases he with rfl | rfl <;> simp_all [exponentOfChars?]

/-- A fraction does not start with a digit. -/
theorem FractionText.noDigitAhead {fraction : List Char} (h : FractionText fraction cs)
    {rest : List Char} (hrest : NoDigitAhead rest) : NoDigitAhead (cs ++ rest) := by
  cases h with
  | none => exact hrest
  | point =>
      intro c hc
      obtain rfl := Option.some.inj hc
      rfl

/-- A fraction and an exponent are read back from their text. -/
theorem FractionText.chars? {fraction rest : List Char} (h : FractionText fraction cs)
    (hrest : ExponentText exponent rest) :
    tailOfChars? (cs ++ rest) = some (fraction, exponent) := by
  cases h with
  | none =>
      have hexponent := hrest.chars?
      cases hrest with
      | none => rfl
      | unsigned he | plus he | minus he =>
          rcases he with rfl | rfl <;> simp_all [tailOfChars?]
  | @point digits h =>
      obtain ⟨hne, hall⟩ := h
      simp [tailOfChars?, takeWhile_digits hall hrest.noDigitAhead,
        dropWhile_digits hall hrest.noDigitAhead, hne, hrest.chars?]

/-- **A number** is recognised however it is written. -/
theorem NumberText.chars? (h : NumberText n cs) : ofChars? cs = some n := by
  obtain ⟨negative, digits, f, e⟩ := n
  cases h with | @intro fraction exponent whole leading hfraction hexponent
  obtain ⟨hne, hall⟩ := whole
  dsimp only at hne hall leading hfraction hexponent ⊢
  have hahead : NoDigitAhead (fraction ++ exponent) :=
    hfraction.noDigitAhead hexponent.noDigitAhead
  have hwhole : (digits.isEmpty || (digits.head? == some '0' && digits.length != 1)) = false := by
    by_cases hzero : digits.head? = some '0'
    · rw [leading hzero]
      rfl
    · simp [hne, hzero]
  have htake := takeWhile_digits hall hahead
  have hdrop := dropWhile_digits hall hahead
  have htail := hfraction.chars? hexponent
  cases negative with
  | true =>
      simp only [ofChars?, if_true, List.singleton_append, htake, hdrop, hwhole, htail]
      rfl
  | false =>
      obtain ⟨d, rest, rfl⟩ := List.exists_cons_of_ne_nil hne
      have hminus : d ≠ '-' := isDigit_ne (hall d List.mem_cons_self) rfl
      rw [List.cons_append] at htake hdrop
      simp only [ofChars?, Bool.false_eq_true, if_false, List.nil_append, List.cons_append]
      split
      · next heq => exact absurd (List.cons.inj heq).1 hminus
      · simp only [htake, hdrop, hwhole, htail]
        rfl

/-! ## Tokens -/

/-- Brackets, braces, commas and colons, which end whatever stands in front of them. -/
def Token.isStructural : Token → Bool
  | leftBracket | rightBracket | leftBrace | rightBrace | comma | colon => true
  | null | bool _ | number _ | string _ => false

namespace Scanner

variable {s : Scanner} {before : List Token} {c : Char} {pieces : List StringPiece}

/-- A character that continues no word and no number. -/
theorem step_resume (h : s.flush? = some before) (hletter : isLetter c = false)
    (hnumeric : isNumeric c = false) : s.step c = startToken before c := by
  have hresume : s.resume c = startToken before c := by rw [resume, h, Option.bind_some]
  obtain ⟨tokens, mode⟩ := s
  cases mode with
  | blank => exact hresume
  | word | number =>
      simp only [step, hletter, hnumeric, Bool.false_eq_true, if_false]
      exact hresume
  | text | escape | unit => cases h

/-- Blanks end what was being read, and change nothing else. -/
theorem scan_blanks {blanks : List Char} (h : s.flush? = some before)
    (hblanks : Token.AreBlank blanks) :
    ∃ s', blanks.foldlM step s = some s' ∧ s'.flush? = some before ∧
      (s = ⟨before, .blank⟩ → s' = ⟨before, .blank⟩) := by
  induction blanks generalizing s with
  | nil => exact ⟨s, rfl, h, id⟩
  | cons c rest ih =>
      have hstep : s.step c = some ⟨before, .blank⟩ := by
        have hc := hblanks c List.mem_cons_self
        simp only [List.mem_cons, List.not_mem_nil, or_false] at hc
        rcases hc with rfl | rfl | rfl | rfl <;> exact step_resume h rfl rfl
      obtain ⟨s', hscan, hflush, hfresh⟩ :=
        @ih ⟨before, .blank⟩ rfl fun c hc => hblanks c (List.mem_cons_of_mem _ hc)
      refine ⟨s', ?_, hflush, fun _ => hfresh rfl⟩
      rw [foldlM_cons_of_some hstep]
      exact hscan

/-! ### Numbers -/

/-- A digit may stand in a number. -/
theorem isNumeric_of_isDigit (h : c.isDigit = true) : isNumeric c = true := by
  simp [isNumeric, h]

/-- The characters of a fraction may stand in a number. -/
theorem isNumeric_of_fraction {digits cs : List Char} (h : FractionText digits cs) :
    ∀ c ∈ cs, isNumeric c = true := by
  cases h with
  | none => exact fun _ hc => nomatch hc
  | point h => exact List.forall_mem_cons.mpr ⟨rfl, fun c hc => isNumeric_of_isDigit (h.2 c hc)⟩

/-- The characters of an exponent may stand in a number. -/
theorem isNumeric_of_exponent {exponent : Option (Bool × List Char)} {cs : List Char}
    (h : ExponentText exponent cs) : ∀ c ∈ cs, isNumeric c = true := by
  cases h with
  | none => exact fun _ hc => nomatch hc
  | unsigned he h =>
      refine List.forall_mem_cons.mpr ⟨?_, fun c hc => isNumeric_of_isDigit (h.2 c hc)⟩
      rcases he with rfl | rfl <;> rfl
  | plus he h | minus he h =>
      refine List.forall_mem_cons.mpr ⟨?_, List.forall_mem_cons.mpr
        ⟨rfl, fun c hc => isNumeric_of_isDigit (h.2 c hc)⟩⟩
      rcases he with rfl | rfl <;> rfl

/-- The characters of a number text may stand in a number. -/
theorem isNumeric_of_text {n : NumberLiteral} {cs : List Char} (h : NumberText n cs) :
    ∀ c ∈ cs, isNumeric c = true := by
  cases h with | @intro fraction exponent whole leading hfraction hexponent
  have hsign : ∀ c ∈ (if n.negative then ['-'] else []), isNumeric c = true := by
    split <;> simp [isNumeric]
  intro c hc
  simp only [List.mem_append] at hc
  rcases hc with hc | hc | hc | hc
  · exact hsign c hc
  · exact isNumeric_of_isDigit (whole.2 c hc)
  · exact isNumeric_of_fraction hfraction c hc
  · exact isNumeric_of_exponent hexponent c hc

/-- A digit starts a number. -/
theorem startToken_of_isDigit (h : c.isDigit = true) :
    startToken before c = some ⟨before, .number [c]⟩ := by
  have hblank : isBlank c = false := by
    simp [isBlank, isDigit_ne h]
  unfold startToken
  split
  all_goals first | cases h | simp [hblank, h]

/-- The first character of a number text starts a number. -/
theorem exists_startToken {n : NumberLiteral} {cs : List Char} (h : NumberText n cs) :
    ∃ c rest, cs = c :: rest ∧ startToken before c = some ⟨before, .number [c]⟩ := by
  cases h with | @intro fraction exponent whole leading hfraction hexponent
  cases n.negative with
  | true => exact ⟨'-', _, rfl, rfl⟩
  | false =>
      obtain ⟨d, rest, hdigits⟩ := List.exists_cons_of_ne_nil whole.1
      have hd : d.isDigit = true := whole.2 d (by rw [hdigits]; exact List.mem_cons_self)
      refine ⟨d, rest ++ (fraction ++ exponent), ?_, startToken_of_isDigit hd⟩
      rw [hdigits]
      rfl

/-- Characters that may stand in a number are gathered. -/
theorem scan_numeric {cs : List Char} (h : ∀ c ∈ cs, isNumeric c = true) (chars : List Char) :
    cs.foldlM step ⟨before, .number chars⟩ = some ⟨before, .number (cs.reverse ++ chars)⟩ := by
  induction cs generalizing chars with
  | nil => rfl
  | cons c rest ih =>
      have hstep : step ⟨before, .number chars⟩ c = some ⟨before, .number (c :: chars)⟩ := by
        simp [step, h c List.mem_cons_self]
      rw [foldlM_cons_of_some hstep, List.reverse_cons, List.append_assoc]
      exact ih (fun c hc => h c (List.mem_cons_of_mem _ hc)) (c :: chars)

/-- A number text is read as its number. -/
theorem scan_number {n : NumberLiteral} {cs : List Char} (h : NumberText n cs) :
    ∃ s', cs.foldlM step ⟨before, .blank⟩ = some s' ∧
      s'.flush? = some (.number n :: before) := by
  have hall := isNumeric_of_text h
  have hchars := h.chars?
  obtain ⟨c, rest, rfl, hstart⟩ := exists_startToken h
  have hfirst : step ⟨before, .blank⟩ c = some ⟨before, .number [c]⟩ := hstart
  refine ⟨⟨before, .number (rest.reverse ++ [c])⟩, ?_, ?_⟩
  · rw [foldlM_cons_of_some hfirst]
    exact scan_numeric (fun c hc => hall c (List.mem_cons_of_mem _ hc)) [c]
  · have hreverse : (rest.reverse ++ [c]).reverse = c :: rest := by simp
    simp only [flush?, hreverse, hchars, Option.map_some]

/-! ### Strings -/

/-- The digits of an escaped character have their values. -/
theorem hexValue?_of_digit {n : Nat} (h : IsHexDigit c n) : hexValue? c = some n := by
  have hn : n < 16 := by
    rcases h with h | h <;> exact (List.getElem?_eq_some_iff.mp h).1
  interval_cases n <;> rcases h with h | h <;> cases h <;> rfl

/-- A piece of a string is read as it is spelled. -/
theorem scan_piece {piece : StringPiece} {cs : List Char} (h : PieceText piece cs) :
    cs.foldlM step ⟨before, .text pieces⟩ = some ⟨before, .text (piece :: pieces)⟩ := by
  cases h with
  | @plain c printable hquote hbackslash =>
      have hcontrol : ¬c.toNat < 0x20 := Nat.not_lt.mpr printable
      simp [step, hquote, hbackslash, hcontrol]
  | escape h =>
      simp only [shortEscapes, List.mem_cons, Prod.mk.injEq, List.not_mem_nil, or_false] at h
      rcases h with ⟨rfl, rfl⟩ | ⟨rfl, rfl⟩ | ⟨rfl, rfl⟩ | ⟨rfl, rfl⟩ | ⟨rfl, rfl⟩ | ⟨rfl, rfl⟩ |
        ⟨rfl, rfl⟩ | ⟨rfl, rfl⟩ <;> rfl
  | unit ha hb hc hd =>
      simp [step, hexValue?_of_digit ha, hexValue?_of_digit hb, hexValue?_of_digit hc,
        hexValue?_of_digit hd]

/-- Several pieces of a string are read one after the other. -/
theorem scan_pieces {parts : List (List Char)} {more : List StringPiece}
    (h : List.Forall₂ PieceText more parts) :
    parts.flatten.foldlM step ⟨before, .text pieces⟩ =
      some ⟨before, .text (more.reverse ++ pieces)⟩ := by
  induction h generalizing pieces with
  | nil => rfl
  | @cons piece part more parts hpiece _ ih =>
      rw [List.flatten_cons, foldlM_append_of_some (scan_piece hpiece), List.reverse_cons,
        List.append_assoc]
      exact ih

/-! ### Rows of tokens -/

/-- **One token**, from between two tokens: the scanner has it once it is closed, and a word, a
number or a string starts where nothing is open. -/
theorem scan_lexeme {t : Token} {cs : List Char} (h : t.Lexeme cs) (hs : s.flush? = some before)
    (hfresh : t.isStructural = false → s = ⟨before, .blank⟩) :
    ∃ s', cs.foldlM step s = some s' ∧ s'.flush? = some (t :: before) ∧
      (t.isStructural = true → s' = ⟨t :: before, .blank⟩) := by
  cases h with
  | leftBracket | rightBracket | leftBrace | rightBrace | comma | colon =>
      refine ⟨⟨_ :: before, .blank⟩, ?_, rfl, fun _ => rfl⟩
      rw [List.foldlM_cons, step_resume hs rfl rfl]
      rfl
  | null | yes | no =>
      obtain rfl := hfresh rfl
      exact ⟨_, rfl, rfl, fun h => nomatch h⟩
  | number h =>
      obtain rfl := hfresh rfl
      obtain ⟨s', hscan, hflush⟩ := scan_number h
      exact ⟨s', hscan, hflush, fun h => nomatch h⟩
  | @string more parts h =>
      obtain rfl := hfresh rfl
      refine ⟨⟨.string (StringPiece.text? more) :: before, .blank⟩, ?_, rfl, fun h => nomatch h⟩
      have hopen : step ⟨before, .blank⟩ '"' = some ⟨before, .text []⟩ := rfl
      rw [foldlM_cons_of_some hopen, foldlM_append_of_some (scan_pieces h), List.append_nil]
      simp [step]

/-- Of two tokens that follow each other, one is structural. -/
def Apart (t u : Token) : Prop := t.isStructural = true ∨ u.isStructural = true

/-- **A row of tokens** is scanned, whatever blanks are between them. -/
theorem scan_spelled {ts : List Token} {cs : List Char} (h : Token.Spelled ts cs) :
    ∀ {s : Scanner} {before : List Token}, s.flush? = some before →
      (∀ t ∈ ts.head?, t.isStructural = false → s = ⟨before, .blank⟩) → ts.IsChain Apart →
        ∃ s', cs.foldlM step s = some s' ∧ s'.flush? = some (ts.reverse ++ before) := by
  induction h with
  | nil hblanks =>
      intro s before hs _ _
      obtain ⟨s', hscan, hflush, -⟩ := scan_blanks hs hblanks
      exact ⟨s', hscan, hflush⟩
  | @cons blanks lexeme cs t ts hblanks hlexeme _ ih =>
      intro s before hs hfresh hchain
      obtain ⟨s₁, hscan₁, hs₁, hfresh₁⟩ := scan_blanks hs hblanks
      obtain ⟨s₂, hscan₂, hs₂, hfresh₂⟩ :=
        scan_lexeme hlexeme hs₁ fun ht => hfresh₁ (hfresh t rfl ht)
      have hnext : ∀ u ∈ ts.head?, u.isStructural = false → s₂ = ⟨t :: before, .blank⟩ := by
        intro u hu hplain
        refine hfresh₂ ?_
        rcases (List.isChain_cons.mp hchain).1 u hu with ht | hu
        · exact ht
        · rw [hplain] at hu
          cases hu
      obtain ⟨s₃, hscan₃, hs₃⟩ := ih hs₂ hnext (List.isChain_cons.mp hchain).2
      refine ⟨s₃, ?_, ?_⟩
      · rw [foldlM_append_of_some hscan₁, foldlM_append_of_some hscan₂]
        exact hscan₃
      · rw [hs₃, List.reverse_cons, List.append_assoc]
        rfl

end Scanner

/-! ## Values -/

namespace Json

open Scanner

/-- A structural token may follow anything, and anything may follow it. -/
theorem isChain_structural {t : Token} {rest : List Token} (ht : t.isStructural = true)
    (h : rest.IsChain Apart) : (t :: rest).IsChain Apart :=
  h.cons fun _ _ => .inl ht

/-- A scalar stands apart from the structural token behind it. -/
theorem isChain_scalar {t : Token} {rest : List Token} (h : rest.IsChain Apart)
    (hhead : ∀ u ∈ rest.head?, u.isStructural = true) : (t :: rest).IsChain Apart :=
  h.cons fun u hu => .inr (hhead u hu)

/-- A key stands apart from its colon, and that from what follows. -/
theorem isChain_key {key : Option String} {rest : List Token} (h : rest.IsChain Apart) :
    (.string key :: .colon :: rest : List Token).IsChain Apart :=
  isChain_scalar (isChain_structural rfl h) (by simp [Token.isStructural])

/-- Behind the items of an array, or the members of an object, the row goes on with a
structural token. -/
theorem head_itemTokens {vs : List Json} {rest : List Token}
    (h : ∀ u ∈ rest.head?, u.isStructural = true) :
    ∀ u ∈ (itemTokens vs ++ rest).head?, u.isStructural = true := by
  cases vs with
  | nil => exact h
  | cons v vs => simp [itemTokens, Token.isStructural]

/-- Behind a member comes a structural token. -/
theorem head_memberTokens {ms : List (Option String × Json)} {rest : List Token}
    (h : ∀ u ∈ rest.head?, u.isStructural = true) :
    ∀ u ∈ (memberTokens ms ++ rest).head?, u.isStructural = true := by
  cases ms with
  | nil => exact h
  | cons m ms => simp [memberTokens, Token.isStructural]

mutual

/-- No two words, numbers or strings follow each other in a value, whatever structural token is
behind it. -/
theorem isChain_tokens : ∀ (v : Json) {rest : List Token}, rest.IsChain Apart →
    (∀ u ∈ rest.head?, u.isStructural = true) → (v.tokens ++ rest).IsChain Apart
  | .null, _, h, hhead | .bool _, _, h, hhead | .number _, _, h, hhead
  | .string _, _, h, hhead => isChain_scalar h hhead
  | .array [], _, h, _ | .object [], _, h, _ =>
      isChain_structural rfl (isChain_structural rfl h)
  | .array (v :: vs), rest, h, _ => by
      have hitems := isChain_itemTokens vs
        (isChain_structural rfl h : (.rightBracket :: rest).IsChain Apart)
      simp only [tokens, List.cons_append, List.append_assoc, List.nil_append]
      exact isChain_structural rfl (isChain_tokens v (hitems (by simp [Token.isStructural]))
        (head_itemTokens (by simp [Token.isStructural])))
  | .object ((key, v) :: ms), rest, h, _ => by
      have hmembers := isChain_memberTokens ms
        (isChain_structural rfl h : (.rightBrace :: rest).IsChain Apart)
      simp only [tokens, List.cons_append, List.append_assoc, List.nil_append]
      exact isChain_structural rfl (isChain_key (isChain_tokens v
        (hmembers (by simp [Token.isStructural]))
        (head_memberTokens (by simp [Token.isStructural]))))

/-- The same for the items of an array. -/
theorem isChain_itemTokens : ∀ (vs : List Json) {rest : List Token}, rest.IsChain Apart →
    (∀ u ∈ rest.head?, u.isStructural = true) → (itemTokens vs ++ rest).IsChain Apart
  | [], _, h, _ => h
  | v :: vs, _, h, hhead => by
      simp only [itemTokens, List.cons_append, List.append_assoc]
      exact isChain_structural rfl
        (isChain_tokens v (isChain_itemTokens vs h hhead) (head_itemTokens hhead))

/-- The same for the members of an object. -/
theorem isChain_memberTokens : ∀ (ms : List (Option String × Json)) {rest : List Token},
    rest.IsChain Apart → (∀ u ∈ rest.head?, u.isStructural = true) →
      (memberTokens ms ++ rest).IsChain Apart
  | [], _, h, _ => h
  | (key, v) :: ms, _, h, hhead => by
      simp only [memberTokens, List.cons_append, List.append_assoc]
      exact isChain_structural rfl (isChain_key
        (isChain_tokens v (isChain_memberTokens ms h hhead) (head_memberTokens hhead)))

end

end Json

namespace JsonReader

open Json

/-- The first item of an array is read like any value. -/
theorem read_first (v : Json) (stack : List OpenValue) :
    v.tokens.foldlM step ⟨stack, .itemOrEnd⟩ = v.tokens.foldlM step ⟨stack, .value⟩ := by
  cases v with
  | array items => cases items <;> rfl
  | object members => rcases members with _ | ⟨⟨key, v⟩, ms⟩ <;> rfl
  | _ => rfl

mutual

/-- **The tokens of a value** bring the reader from where a value is due to behind it. -/
theorem read_tokens : ∀ (v : Json) (stack : List OpenValue),
    v.tokens.foldlM step ⟨stack, .value⟩ = some ⟨stack, .after v⟩
  | .null, _ | .bool _, _ | .number _, _ | .string _, _ => rfl
  | .array [], _ | .object [], _ => rfl
  | .array (v :: vs), stack => by
      have hopen : step ⟨stack, .value⟩ .leftBracket = some ⟨.array [] :: stack, .itemOrEnd⟩ := rfl
      have hfirst : v.tokens.foldlM step ⟨.array [] :: stack, .itemOrEnd⟩ =
          some ⟨.array [] :: stack, .after v⟩ := by
        rw [read_first, read_tokens v]
      rw [tokens, foldlM_cons_of_some hopen, foldlM_append_of_some hfirst]
      exact read_items vs v [] stack
  | .object ((key, v) :: ms), stack => by
      have hopen : [Token.leftBrace, .string key, .colon].foldlM step ⟨stack, .value⟩ =
          some ⟨.object [] key :: stack, .value⟩ := rfl
      have htokens : (Json.object ((key, v) :: ms)).tokens =
          [.leftBrace, .string key, .colon] ++
            (v.tokens ++ (memberTokens ms ++ [.rightBrace])) := rfl
      rw [htokens, foldlM_append_of_some hopen, foldlM_append_of_some (read_tokens v _)]
      exact read_members ms key v [] stack

/-- Further items, up to the end of the array. -/
theorem read_items : ∀ (vs : List Json) (v : Json) (items : List Json) (stack : List OpenValue),
    (itemTokens vs ++ [Token.rightBracket]).foldlM step ⟨.array items :: stack, .after v⟩ =
      some ⟨stack, .after (.array (items.reverse ++ v :: vs))⟩
  | [], v, items, stack => by
      have hclose : step ⟨.array items :: stack, .after v⟩ .rightBracket =
          some ⟨stack, .after (.array (v :: items).reverse)⟩ := rfl
      rw [List.reverse_cons] at hclose
      exact congrArg (·.bind pure) hclose
  | w :: ws, v, items, stack => by
      have hcomma : step ⟨.array items :: stack, .after v⟩ .comma =
          some ⟨.array (v :: items) :: stack, .value⟩ := rfl
      rw [itemTokens, List.cons_append, foldlM_cons_of_some hcomma, List.append_assoc,
        foldlM_append_of_some (read_tokens w _)]
      have hrest := read_items ws w (v :: items) stack
      rw [List.reverse_cons, List.append_assoc] at hrest
      exact hrest

/-- Further members, up to the end of the object. -/
theorem read_members : ∀ (ms : List (Option String × Json)) (key : Option String) (v : Json)
    (members : List (Option String × Json)) (stack : List OpenValue),
    (memberTokens ms ++ [Token.rightBrace]).foldlM step ⟨.object members key :: stack, .after v⟩ =
      some ⟨stack, .after (.object (members.reverse ++ (key, v) :: ms))⟩
  | [], key, v, members, stack => by
      have hclose : step ⟨.object members key :: stack, .after v⟩ .rightBrace =
          some ⟨stack, .after (.object ((key, v) :: members).reverse)⟩ := rfl
      rw [List.reverse_cons] at hclose
      exact congrArg (·.bind pure) hclose
  | (key', w) :: ms, key, v, members, stack => by
      have hcomma : [Token.comma, .string key', .colon].foldlM step
          ⟨.object members key :: stack, .after v⟩ =
            some ⟨.object ((key, v) :: members) key' :: stack, .value⟩ := rfl
      have htokens : memberTokens ((key', w) :: ms) ++ [.rightBrace] =
          [.comma, .string key', .colon] ++ (w.tokens ++ (memberTokens ms ++ [.rightBrace])) := by
        simp [memberTokens]
      rw [htokens, foldlM_append_of_some hcomma, foldlM_append_of_some (read_tokens w _)]
      have hrest := read_members ms key' w ((key, v) :: members) stack
      rw [List.reverse_cons, List.append_assoc] at hrest
      exact hrest

end

end JsonReader

namespace Json

/-- **Every text of a value** is read as that value. -/
theorem parse?_of_isTextOf {v : Json} {cs : List Char} (h : IsTextOf cs v) :
    parse? (String.ofList cs) = some v := by
  have hchain : v.tokens.IsChain Scanner.Apart := by
    rw [← List.append_nil v.tokens]
    exact isChain_tokens v .nil (fun _ hu => nomatch hu)
  obtain ⟨s, hscan, hflush⟩ :=
    @Scanner.scan_spelled _ _ h Scanner.start [] rfl (fun _ _ _ => rfl) hchain
  have htokens : Token.scan? cs = some v.tokens := by
    rw [Token.scan?, hscan, Option.bind_some, hflush, List.append_nil, Option.map_some,
      List.reverse_reverse]
  rw [parse?, String.toList_ofList, htokens, Option.bind_some, ofTokens?]
  exact congrArg (·.bind JsonReader.finish?) (JsonReader.read_tokens v [])

/-- No text belongs to two values. -/
theorem IsTextOf.unique {v w : Json} {cs : List Char} (hv : IsTextOf cs v) (hw : IsTextOf cs w) :
    v = w := by
  have hread := (parse?_of_isTextOf hv).symm.trans (parse?_of_isTextOf hw)
  exact Option.some.inj hread

end Json

end KernelCheck
