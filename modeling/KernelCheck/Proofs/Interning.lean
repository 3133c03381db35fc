import KernelCheck.Proofs.Loading.Names
import Mathlib.Data.List.Dedup
import Mathlib.Data.List.Perm.Subperm

/-!
# A table in use

A table is asked for names in any order, by those who add texts and by those who
only look.  Every equality of names stands for an equality of texts because of what
is shown here for all sequences of requests.

1. A table *holds* texts once each, and then a position below its size and the text
   there determine each other (`Interner.get?_lookup`).
2. One request keeps this, and so do several (`Interner.serveAll_served`).  A request
   fails only if every position is taken.
3. A table may be kept in two structures, the texts in order and an index from texts to
   names.  They stay inverse to each other, and answer alike
   (`IndexedTable.serveAll_indexes`).

`names_kept` says what a table that was started anew answers after any sequence of
requests for which it has room.
-/

namespace KernelCheck

namespace Interner

/-! ## Texts and positions -/

/-- A text is found if it is in the table. -/
theorem isSome_get?_iff {t : Interner} {s : String} : (t.get? s).isSome ↔ s ∈ t.texts := by
  simp [get?, List.isSome_idxOf?]

/-- A position leads to its text, and that leads back to it. -/
theorem get?_lookup {t : Interner} (ht : t.texts.Nodup) {n : Name} (hn : n.index < t.size) :
    t.get? (t.lookup n) = some n := by
  have htext : t.lookup n = t.texts[n.index] := by
    rw [lookup, List.getElem?_eq_getElem hn, Option.getD_some]
  have hidx : t.texts.idxOf? t.texts[n.index] = some n.index := by
    rw [List.idxOf?_eq_some_iff]
    refine ⟨hn, rfl, fun j hj heq => ?_⟩
    have hsame := (List.Nodup.getElem_inj_iff ht).mp heq
    omega
  rw [htext, get?, hidx]
  rfl

/-- A name beyond the table has the empty text. -/
theorem lookup_of_size_le {t : Interner} {n : Name} (hn : t.size ≤ n.index) : t.lookup n = "" := by
  rw [lookup, List.getElem?_eq_none hn, Option.getD_none]

/-- Interning adds a text to the end unless it is there already. -/
theorem texts_intern (t : Interner) (s : String) :
    (t.intern s).2.texts = if s ∈ t.texts then t.texts else t.texts ++ [s] := by
  rw [intern]
  cases h : t.get? s with
  | some n =>
      have hmem : s ∈ t.texts := isSome_get?_iff.mp (by rw [h]; rfl)
      rw [if_pos hmem]
  | none =>
      have hmem : s ∉ t.texts := fun hmem => by simpa [h] using isSome_get?_iff.mpr hmem
      rw [if_neg hmem]

/-- As long as a position is left, or none is needed, a text gets its name. -/
theorem tryIntern_eq {t : Interner} {s : String} (h : s ∈ t.texts ∨ t.size < capacity) :
    t.tryIntern s = .ok (t.intern s) := by
  unfold tryIntern intern
  cases hs : t.get? s with
  | some n => rfl
  | none =>
      have hmem : s ∉ t.texts := fun hmem => by simpa [hs] using isSome_get?_iff.mpr hmem
      have hroom : t.size < capacity := h.resolve_left hmem
      exact if_pos hroom

/-- A table grows by one text exactly if the text is new. -/
theorem size_of_tryIntern {t u : Interner} {s : String} {n : Name}
    (h : t.tryIntern s = .ok (n, u)) :
    u.size = if s ∈ t.texts then t.size else t.size + 1 := by
  have hroom : s ∈ t.texts ∨ t.size < capacity := by
    by_contra hfull
    obtain ⟨hmem, hsize⟩ := not_or.mp hfull
    have hs : t.get? s = none := by
      rw [← Option.not_isSome_iff_eq_none, isSome_get?_iff]
      exact hmem
    rw [tryIntern, hs] at h
    dsimp only at h
    rw [if_neg hsize] at h
    cases h
  have hu : u = (t.intern s).2 := by
    rw [tryIntern_eq hroom] at h
    exact (congrArg Prod.snd (Except.ok.inj h)).symm
  rw [hu, size, texts_intern]
  split <;> simp [size]

/-! ## Requests -/

/-- What a table is asked for. -/
inductive Request where
  /-- The name of a text, which is added if it is new.  The program stops if the table is
  full. -/
  | intern (s : String)
  /-- The same from someone who takes a failure for an answer. -/
  | tryIntern (s : String)
  /-- The name of a text, if it is in the table. -/
  | find (s : String)

namespace Request

/-- The text that the request is about. -/
def text : Request → String
  | intern s | tryIntern s | find s => s

/-- The request adds its text if that is new. -/
def adds : Request → Bool
  | intern _ | tryIntern _ => true
  | find _ => false

end Request

/-- The texts that requests add unless they are there already. -/
def added (rs : List Request) : List String := (rs.filter (·.adds)).map (·.text)

/-- The texts that several requests add, first those of the first one. -/
theorem added_cons (r : Request) (rest : List Request) :
    added (r :: rest) = added [r] ++ added rest := by
  rw [added, ← List.singleton_append, List.filter_append, List.map_append]
  rfl

/-- Several requests to a table of some kind, one after the other, with their answers. -/
def serveAll {σ : Type} (serve : σ → Request → Except InternError (Option Name × σ)) :
    List Request → σ → Except InternError (List (Option Name) × σ)
  | [], t => .ok ([], t)
  | r :: rest, t => do
      let (answer, t) ← serve t r
      let (answers, t) ← serveAll serve rest t
      return (answer :: answers, t)

/-- Several requests go through if the first goes through and the others do after it. -/
theorem serveAll_cons_eq_ok {σ : Type} {serve : σ → Request → Except InternError (Option Name × σ)}
    {r : Request} {rest : List Request} {t u : σ} {answers : List (Option Name)} :
    serveAll serve (r :: rest) t = .ok (answers, u) ↔
      ∃ a w as, serve t r = .ok (a, w) ∧ serveAll serve rest w = .ok (as, u) ∧
        answers = a :: as := by
  constructor
  · intro h
    rw [serveAll] at h
    cases hr : serve t r with
    | error e =>
        rw [hr] at h
        cases h
    | ok first =>
        obtain ⟨a, w⟩ := first
        rw [hr] at h
        change (serveAll serve rest w).bind _ = _ at h
        cases hrest : serveAll serve rest w with
        | error e =>
            rw [hrest] at h
            cases h
        | ok made =>
            rw [hrest] at h
            cases h
            exact ⟨a, w, made.1, rfl, hrest, rfl⟩
  · rintro ⟨a, w, as, hr, hrest, rfl⟩
    rw [serveAll, hr]
    change (serveAll serve rest w).bind _ = _
    rw [hrest]
    rfl

/-- One request, with the answer. -/
def serve (t : Interner) : Request → Except InternError (Option Name × Interner)
  | .intern s | .tryIntern s => (t.tryIntern s).map fun (n, t) => (some n, t)
  | .find s => .ok (t.get? s, t)

/-- The answer to a request is what the table says of the text, be it at once or later: a name
is the name of the text and reads as it.  Who adds a text always gets a name. -/
structure Answers (t : Interner) (r : Request) (answer : Option Name) : Prop where
  name : ∀ n, answer = some n → t.get? r.text = some n ∧ t.lookup n = r.text
  added : r.adds = true → answer.isSome

/-- An answer stays right in every later table. -/
theorem Answers.later {t u : Interner} {r : Request} {answer : Option Name}
    (h : t.Answers r answer) (hu : t.Within u) : u.Answers r answer := by
  refine ⟨fun n hn => ?_, h.added⟩
  have hname := hu _ n (h.name n hn).1
  exact ⟨hname, lookup_of_get? hname⟩

/-- What requests make of a table that holds its texts once each. -/
structure Served (t : Interner) (rs : List Request) (answers : List (Option Name))
    (u : Interner) : Prop where
  within : t.Within u
  nodup : u.texts.Nodup
  mem : ∀ s, s ∈ u.texts ↔ s ∈ t.texts ∨ s ∈ Interner.added rs
  answers : List.Forall₂ u.Answers rs answers

namespace Served

variable {t u w : Interner} {rs rs' : List Request} {as as' : List (Option Name)}

/-- No requests. -/
theorem nothing (ht : t.texts.Nodup) : Served t [] [] t :=
  ⟨.refl t, ht, fun s => by simp [added], .nil⟩

/-- One request in front of others. -/
theorem cons {r : Request} {a : Option Name} (h : Served t [r] [a] u) (h' : Served u rs as w) :
    Served t (r :: rs) (a :: as) w := by
  refine ⟨h.within.trans h'.within, h'.nodup, fun s => ?_, ?_⟩
  · rw [h'.mem, h.mem, added_cons r rs, List.mem_append, or_assoc]
  · have hfirst : u.Answers r a := by
      cases h.answers with
      | cons hfirst _ => exact hfirst
    exact .cons (hfirst.later h'.within) h'.answers

/-- A text that is looked for. -/
theorem find (ht : t.texts.Nodup) (s : String) : Served t [.find s] [t.get? s] t := by
  refine ⟨.refl t, ht, fun _ => by simp [added, Request.adds], .cons ⟨?_, ?_⟩ .nil⟩
  · intro n hn
    exact ⟨hn, lookup_of_get? hn⟩
  · intro hadds
    cases hadds

/-- A text that is added. -/
theorem add (ht : t.texts.Nodup) {r : Request} (hr : r.adds = true) :
    Served t [r] [some (t.intern r.text).1] (t.intern r.text).2 := by
  have hadded : added [r] = [r.text] := by simp [added, hr]
  refine ⟨t.within_intern r.text, ?_, fun s => ?_, .cons ⟨?_, fun _ => rfl⟩ .nil⟩
  · rw [texts_intern]
    split
    case isTrue => exact ht
    case isFalse hnew => simpa using ht.concat hnew
  · rw [texts_intern, hadded, List.mem_singleton]
    split
    case isTrue hmem => exact ⟨.inl, fun h => h.elim id fun heq => heq ▸ hmem⟩
    case isFalse => rw [List.mem_append, List.mem_singleton]
  · intro n hn
    have hname : (t.intern r.text).2.get? r.text = some n := by
      rw [t.get?_intern, ← hn]
    exact ⟨hname, lookup_of_get? hname⟩

end Served

/-- Texts that are different and among some texts are no more than those. -/
theorem length_le_of_subset {texts texts' : List String} (h : texts.Nodup)
    (hsub : texts ⊆ texts') : texts.length ≤ texts'.dedup.length :=
  (h.subperm fun _ hs => List.mem_dedup.mpr (hsub hs)).length_le

/-- **Several requests** are served if there is room for all the texts. -/
theorem serveAll_served (rs : List Request) {t : Interner} (ht : t.texts.Nodup)
    (hroom : (t.texts ++ added rs).dedup.length ≤ capacity) :
    ∃ answers u, serveAll serve rs t = .ok (answers, u) ∧ Served t rs answers u := by
  induction rs generalizing t with
  | nil => exact ⟨[], t, rfl, .nothing ht⟩
  | cons r rest ih =>
      rw [added_cons] at hroom
      have hserve : ∃ a u, t.serve r = .ok (a, u) ∧ Served t [r] [a] u := by
        by_cases hadds : r.adds = true
        · have hplace : r.text ∈ t.texts ∨ t.size < capacity := by
            by_contra hfull
            obtain ⟨hnew, hsize⟩ := not_or.mp hfull
            have hmore : (t.texts ++ [r.text]).length ≤
                (t.texts ++ (added [r] ++ added rest)).dedup.length := by
              apply length_le_of_subset
              · simpa using ht.concat hnew
              · simp [added, hadds]
            rw [List.length_append, List.length_singleton] at hmore
            unfold size at hsize
            omega
          refine ⟨_, _, ?_, .add ht hadds⟩
          cases r with
          | intern s | tryIntern s => exact congrArg (Except.map _) (tryIntern_eq hplace)
          | find s => cases hadds
        · cases r with
          | intern s | tryIntern s => exact absurd rfl hadds
          | find s => exact ⟨_, _, rfl, .find ht s⟩
      obtain ⟨a, u, hserve, hfirst⟩ := hserve
      -- the texts that are known after the first request are among all of them
      have hsub : (u.texts ++ added rest).dedup ⊆ t.texts ++ (added [r] ++ added rest) := by
        intro s hs
        rw [List.mem_dedup, List.mem_append, hfirst.mem] at hs
        simpa [or_assoc] using hs
      have hrest := length_le_of_subset (List.nodup_dedup _) hsub
      obtain ⟨answers, w, hw, hserved⟩ := ih hfirst.nodup (Nat.le_trans hrest hroom)
      exact ⟨a :: answers, w, serveAll_cons_eq_ok.mpr ⟨a, u, answers, hserve, hw, rfl⟩,
        hfirst.cons hserved⟩

end Interner

/-! ## Texts and index side by side -/

/-- A table in two structures: the texts in order, and an index from texts to names. -/
structure IndexedTable where
  texts : List String
  index : List (String × Name)

namespace IndexedTable

/-- A text at the end, with its position in the index. -/
def push (T : IndexedTable) (s : String) : IndexedTable :=
  ⟨T.texts ++ [s], (s, ⟨T.texts.length⟩) :: T.index⟩

/-- The texts that every kernel may need, pushed one after the other. -/
def initial : IndexedTable := Interner.initialTexts.foldl push ⟨[], []⟩

/-- The name of a text, as long as there is a position for it. -/
def tryIntern (T : IndexedTable) (s : String) : Except InternError (Name × IndexedTable) :=
  match T.index.lookup s with
  | some n => .ok (n, T)
  | none =>
    if T.texts.length < Interner.capacity then .ok (⟨T.texts.length⟩, T.push s)
    else .error (.full T.texts.length)

/-- One request, with the answer. -/
def serve (T : IndexedTable) : Interner.Request → Except InternError (Option Name × IndexedTable)
  | .intern s | .tryIntern s => (T.tryIntern s).map fun (n, T) => (some n, T)
  | .find s => .ok (T.index.lookup s, T)

/-- The texts are those of a table, and the index finds what a search among them finds. -/
structure Indexes (T : IndexedTable) (t : Interner) : Prop where
  texts : T.texts = t.texts
  lookup : ∀ s, T.index.lookup s = t.get? s

namespace Indexes

variable {T : IndexedTable} {t : Interner}

/-- A new text is added to both structures. -/
theorem push (h : T.Indexes t) {s : String} (hs : t.get? s = none) :
    (T.push s).Indexes ⟨t.texts ++ [s]⟩ := by
  refine ⟨congrArg (· ++ [s]) h.texts, fun s' => ?_⟩
  by_cases heq : s' = s
  · subst heq
    rw [Interner.get?_append_self hs, IndexedTable.push, List.lookup_cons_self, h.texts]
    rfl
  · have hne : (s' == s) = false := beq_eq_false_iff_ne.mpr heq
    rw [Interner.get?_append_of_ne heq, IndexedTable.push, List.lookup_cons, hne]
    exact h.lookup s'

/-- **One text** gets the same name in both, or there is no room for it in either. -/
theorem tryIntern (h : T.Indexes t) (s : String) :
    (∃ n U u, T.tryIntern s = .ok (n, U) ∧ t.tryIntern s = .ok (n, u) ∧ U.Indexes u) ∨
      ∃ e, T.tryIntern s = .error e ∧ t.tryIntern s = .error e := by
  unfold IndexedTable.tryIntern Interner.tryIntern
  rw [h.lookup, h.texts]
  cases hs : t.get? s with
  | some n => exact .inl ⟨n, T, t, rfl, rfl, h⟩
  | none =>
      by_cases hroom : t.size < Interner.capacity
      · refine .inl ⟨⟨t.size⟩, _, _, if_pos hroom, if_pos hroom, h.push hs⟩
      · exact .inr ⟨.full t.size, if_neg hroom, if_neg hroom⟩

/-- **One request** gets the same answer from both kinds of table, or the same error. -/
theorem serve (h : T.Indexes t) (r : Interner.Request) :
    (∃ a U u, T.serve r = .ok (a, U) ∧ t.serve r = .ok (a, u) ∧ U.Indexes u) ∨
      ∃ e, T.serve r = .error e ∧ t.serve r = .error e := by
  cases r with
  | find s => exact .inl ⟨t.get? s, T, t, by rw [IndexedTable.serve, h.lookup], rfl, h⟩
  | intern s | tryIntern s =>
      rcases h.tryIntern s with ⟨n, U, u, hT, ht, hU⟩ | ⟨e, hT, ht⟩
      · exact .inl ⟨some n, U, u, congrArg (Except.map _) hT, congrArg (Except.map _) ht, hU⟩
      · exact .inr ⟨e, congrArg (Except.map _) hT, congrArg (Except.map _) ht⟩

end Indexes

/-- **Several requests** get the same answers, and the two structures stay inverse to each
other. -/
theorem serveAll_indexes (rs : List Interner.Request) {T : IndexedTable} {t u : Interner}
    {answers : List (Option Name)} (h : T.Indexes t)
    (hserve : Interner.serveAll Interner.serve rs t = .ok (answers, u)) :
    ∃ U, Interner.serveAll serve rs T = .ok (answers, U) ∧ U.Indexes u := by
  induction rs generalizing T t answers with
  | nil =>
      cases hserve
      exact ⟨T, rfl, h⟩
  | cons r rest ih =>
      obtain ⟨a, w, as, hr, hrest, rfl⟩ := Interner.serveAll_cons_eq_ok.mp hserve
      rcases h.serve r with ⟨a', W, w', hT, ht, hW⟩ | ⟨e, -, ht⟩
      · rw [ht] at hr
        cases hr
        obtain ⟨U, hU, hindexes⟩ := ih hW hrest
        exact ⟨U, Interner.serveAll_cons_eq_ok.mpr ⟨a, W, as, hT, hU, rfl⟩, hindexes⟩
      · rw [ht] at hr
        cases hr

/-- The two structures start in step. -/
theorem indexes_initial : initial.Indexes .initial := by
  have hpush : ∀ (texts : List String) {T : IndexedTable} {t : Interner}, T.Indexes t →
      (t.texts ++ texts).Nodup → (texts.foldl push T).Indexes ⟨t.texts ++ texts⟩ := by
    intro texts
    induction texts with
    | nil =>
        intro T t h _
        rw [List.append_nil]
        exact h
    | cons s rest ih =>
        intro T t h hnodup
        rw [List.append_cons] at hnodup ⊢
        have hnew : t.get? s = none := by
          rw [← Option.not_isSome_iff_eq_none, Interner.isSome_get?_iff]
          intro hmem
          have hfirst := (List.nodup_append.mp hnodup).1
          exact (List.nodup_append.mp hfirst).2.2 s hmem s List.mem_cons_self rfl
        exact ih (h.push hnew) hnodup
  have hnothing : IndexedTable.Indexes ⟨[], []⟩ ⟨[]⟩ := ⟨rfl, fun _ => rfl⟩
  exact hpush Interner.initialTexts hnothing (by decide +kernel)

end IndexedTable

/-! ## Tables that are started anew -/

namespace Interner

/-- Whoever only looks changes nothing. -/
theorem serveAll_filter (rs : List Request) {t u : Interner} {answers : List (Option Name)}
    (h : serveAll serve rs t = .ok (answers, u)) :
    ∃ others, serveAll serve (rs.filter (·.adds)) t = .ok (others, u) := by
  induction rs generalizing t answers with
  | nil =>
      cases h
      exact ⟨[], rfl⟩
  | cons r rest ih =>
      obtain ⟨a, w, as, hr, hrest, rfl⟩ := serveAll_cons_eq_ok.mp h
      obtain ⟨others, hothers⟩ := ih hrest
      by_cases hadds : r.adds = true
      · rw [List.filter_cons_of_pos hadds]
        exact ⟨a :: others, serveAll_cons_eq_ok.mpr ⟨a, w, others, hr, hothers, rfl⟩⟩
      · -- a look leaves the table as it was
        have hsame : w = t := by
          cases r with
          | intern s | tryIntern s => exact absurd rfl hadds
          | find s =>
              cases hr
              rfl
        rw [List.filter_cons_of_neg hadds, ← hsame]
        exact ⟨others, hothers⟩

/-- What holds of a table after some requests have been answered, if it was started anew. -/
structure KeepsNames (t : Interner) (rs : List Request) (answers : List (Option Name)) : Prop where
  /-- Every name that was given out still reads as the text it was given for. -/
  answers : List.Forall₂ t.Answers rs answers
  /-- Names are equal exactly if their texts are. -/
  eq_iff : ∀ s s' n n', t.get? s = some n → t.get? s' = some n' → (n = n' ↔ s = s')
  /-- A name below the size leads to its text and back. -/
  get_lookup : ∀ n, n.index < t.size → t.get? (t.lookup n) = some n
  /-- Any other name reads as the empty text. -/
  lookup_past : ∀ n, t.size ≤ n.index → t.lookup n = ""
  /-- Only what was there at first, or was added, is found. -/
  found_iff : ∀ s, (t.get? s).isSome ↔ s ∈ initialTexts ∨ s ∈ added rs
  /-- The size is the number of different texts. -/
  size : t.size = (initialTexts ++ added rs).dedup.length
  /-- One text more makes the table larger by one exactly if it is new. -/
  growth : ∀ s n u, t.tryIntern s = .ok (n, u) →
    u.size = if s ∈ initialTexts ∨ s ∈ added rs then t.size else t.size + 1
  /-- The empty text keeps its name. -/
  empty : t.get? "" = some .empty

/-- **Names are kept.**  Start a table anew, and ask for anything in any order.  As long as
the different texts are no more than there are positions, every request is answered, and the
names that were given out go on to stand for their texts.  Whoever only looks changes
nothing: without those requests the table is the same.  An index that is kept beside the
texts stays the inverse of them. -/
theorem names_kept (rs : List Request)
    (hroom : (initialTexts ++ added rs).dedup.length ≤ capacity) :
    initial.size = 16 ∧ ∃ answers t, serveAll serve rs initial = .ok (answers, t) ∧
      t.KeepsNames rs answers ∧
      (∃ others, serveAll serve (rs.filter (·.adds)) initial = .ok (others, t)) ∧
      ∃ T, serveAll IndexedTable.serve rs .initial = .ok (answers, T) ∧ T.Indexes t := by
  refine ⟨rfl, ?_⟩
  have hnodup : initial.texts.Nodup := by decide +kernel
  obtain ⟨answers, t, hserve, hserved⟩ := serveAll_served rs hnodup hroom
  have hmem : ∀ s, s ∈ t.texts ↔ s ∈ initialTexts ∨ s ∈ added rs := hserved.mem
  have hempty : initial.get? "" = some .empty := by decide +kernel
  refine ⟨answers, t, hserve, ?_, serveAll_filter rs hserve,
    IndexedTable.serveAll_indexes rs IndexedTable.indexes_initial hserve⟩
  constructor
  case answers => exact hserved.answers
  case eq_iff =>
    intro s s' n n' hn hn'
    constructor
    · rintro rfl
      exact get?_inj hn hn'
    · rintro rfl
      exact Option.some.inj (hn.symm.trans hn')
  case get_lookup => exact fun n hn => get?_lookup hserved.nodup hn
  case lookup_past => exact fun n hn => lookup_of_size_le hn
  case found_iff => exact fun s => isSome_get?_iff.trans (hmem s)
  case size =>
    have hperm : t.texts.Perm (initialTexts ++ added rs).dedup := by
      rw [List.perm_ext_iff_of_nodup hserved.nodup (List.nodup_dedup _)]
      intro s
      rw [hmem, List.mem_dedup, List.mem_append]
    exact hperm.length_eq
  case growth =>
    intro s n u hu
    simpa only [hmem] using size_of_tryIntern hu
  case empty => exact hserved.within _ _ hempty

/-- Two texts that are new, one of them twice, and one that is looked for too early. -/
theorem names_kept_earlyLook :
    let rs : List Request :=
      [.intern "tile", .find "acc", .tryIntern "acc", .intern "", .tryIntern "tile"]
    (initialTexts ++ added rs).dedup.length = 18 ∧
      ∃ answers t, serveAll serve rs initial = .ok (answers, t) ∧ t.KeepsNames rs answers ∧
        answers = [some ⟨16⟩, none, some ⟨17⟩, some ⟨0⟩, some ⟨16⟩] := by
  intro rs
  have hcount : (initialTexts ++ added rs).dedup.length = 18 := by decide +kernel
  refine ⟨hcount, ?_⟩
  obtain ⟨-, answers, t, hserve, hkeeps, -⟩ := names_kept rs (by rw [hcount]; decide)
  have hanswers : (serveAll serve rs initial).map Prod.fst =
      .ok [some ⟨16⟩, none, some ⟨17⟩, some ⟨0⟩, some ⟨16⟩] := by rfl
  rw [hserve] at hanswers
  exact ⟨answers, t, hserve, hkeeps, Except.ok.inj hanswers⟩

end Interner

end KernelCheck
