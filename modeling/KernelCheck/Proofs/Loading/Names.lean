import KernelCheck.Rule.Registry

/-!
# Texts, names and registries

The same texts get other names in another table.

* `Interner.Within` — one table grew from another: every text keeps its name.
* `Interner.Renames` — a map from the names of one table to those of another, for
  the texts that both of them hold.
* `Registry.targetsOf` — a registry by text.  A registry that is made by
  registering texts says the same of every text, whichever table it is made
  with (`Registry.targetsOf_ofTexts`).
-/

namespace KernelCheck

namespace Interner

variable {t u w : Interner} {s s' : String} {n n' : Name}

/-- A text that is added to a table is found at its end. -/
theorem get?_append_self (h : t.get? s = none) : (mk (t.texts ++ [s])).get? s = some ⟨t.size⟩ := by
  have hmem : t.texts.idxOf? s = none := by simpa [get?] using h
  rw [get?, List.idxOf?, List.findIdx?_append, ← List.idxOf?, hmem]
  simp [size]

/-- Other texts are found where they were. -/
theorem get?_append_of_ne (h : s' ≠ s) : (mk (t.texts ++ [s])).get? s' = t.get? s' := by
  have hnot : List.findIdx? (· == s') [s] = none := by simp [h.symm]
  rw [get?, List.idxOf?, List.findIdx?_append, hnot]
  simp [get?, List.idxOf?]

/-- The text that is added has the name that it was given. -/
theorem get?_intern (t : Interner) (s : String) : (t.intern s).2.get? s = some (t.intern s).1 := by
  unfold intern
  cases h : t.get? s with
  | some n => exact h
  | none => exact get?_append_self h

/-- A text that has a name keeps it, and nothing is added. -/
theorem intern_of_get? (h : t.get? s = some n) : t.intern s = (n, t) := by
  rw [intern, h]

/-- Interning a text leaves the names of all others as they were. -/
theorem get?_intern_of_ne (t : Interner) (h : s' ≠ s) : (t.intern s).2.get? s' = t.get? s' := by
  unfold intern
  cases t.get? s with
  | some n => rfl
  | none => exact get?_append_of_ne h

/-- Different texts have different names. -/
theorem get?_inj (h : t.get? s = some n) (h' : t.get? s' = some n) : s = s' := by
  rw [← lookup_of_get? h, lookup_of_get? h']

/-- The name of a text lies inside the table. -/
theorem index_lt_of_get? (h : t.get? s = some n) : n.index < t.size := by
  obtain ⟨i, hi, rfl⟩ := Option.map_eq_some_iff.mp h
  obtain ⟨hlt, -, -⟩ := List.idxOf?_eq_some_iff.mp hi
  exact hlt

/-- Every text of the one table has the same name in the other. -/
def Within (t u : Interner) : Prop := ∀ s n, t.get? s = some n → u.get? s = some n

/-- A table is within itself. -/
theorem Within.refl (t : Interner) : t.Within t := fun _ _ h => h

/-- A table within a table within a table. -/
theorem Within.trans (h : t.Within u) (h' : u.Within w) : t.Within w :=
  fun s n hs => h' s n (h s n hs)

/-- Interning only adds to a table. -/
theorem within_intern (t : Interner) (s : String) : t.Within (t.intern s).2 := by
  intro s' n h
  by_cases hs : s' = s
  · subst hs
    rw [get?_intern, intern, h]
  · rw [get?_intern_of_ne t hs, h]

/-- The map takes the name of a text in the one table to its name in the other. -/
def Renames (t u : Interner) (σ : Name → Name) : Prop :=
  ∀ s n n', t.get? s = some n → u.get? s = some n' → σ n = n'

/-- Smaller tables have fewer names to be renamed. -/
theorem Renames.of_within {t' u' : Interner} {σ : Name → Name} (h : Renames t' u' σ)
    (ht : t.Within t') (hu : u.Within u') : Renames t u σ :=
  fun s n n' hs hs' => h s n n' (ht s n hs) (hu s n' hs')

/-- A name in the one table whose text is in the other as well. -/
def Shared (t u : Interner) (n : Name) : Prop :=
  ∃ s n', t.get? s = some n ∧ u.get? s = some n'

/-- A name that smaller tables share is one that the larger ones share. -/
theorem Shared.of_within {t' u' : Interner} (h : Shared t u n) (ht : t.Within t')
    (hu : u.Within u') : Shared t' u' n := by
  obtain ⟨s, n', hs, hs'⟩ := h
  exact ⟨s, n', ht s n hs, hu s n' hs'⟩

/-- The name of the same text in the other table; a name without such a text stays. -/
def translate (t u : Interner) (n : Name) : Name := (u.get? (t.lookup n)).getD n

/-- The translation by texts renames one table to the other. -/
theorem renames_translate (t u : Interner) : Renames t u (translate t u) := by
  intro s n n' hs hs'
  rw [translate, lookup_of_get? hs, hs']
  rfl

/-- A shared name is taken to one with the same text. -/
theorem Renames.lookup {σ : Name → Name} (h : Renames t u σ) (hn : Shared t u n) :
    u.lookup (σ n) = t.lookup n := by
  obtain ⟨s, n', hs, hs'⟩ := hn
  rw [h s n n' hs hs', lookup_of_get? hs, lookup_of_get? hs']

/-- Shared names stay apart. -/
theorem Renames.injective {σ : Name → Name} (h : Renames t u σ) {m : Name} (hm : Shared t u m)
    (hn : Shared t u n) (heq : σ m = σ n) : m = n := by
  obtain ⟨s, m', hs, hs'⟩ := hm
  obtain ⟨r, n', hr, hr'⟩ := hn
  rw [h s m m' hs hs', h r n n' hr hr'] at heq
  subst heq
  have htexts : s = r := get?_inj hs' hr'
  subst htexts
  exact Option.some.inj (hs.symm.trans hr)

end Interner

namespace Registry

/-- Where markers with a given word are accepted. -/
def targetsOf (r : Registry) (t : Interner) (s : String) : Targets :=
  ((t.get? s).map r.targets).getD .empty

/-- The registry knows names of the table only. -/
def KnownIn (r : Registry) (t : Interner) : Prop :=
  ∀ n, (∀ s, t.get? s ≠ some n) → r.targets n = .empty

/-- Registers words one after the other, in a table that holds them then. -/
def registerTexts (entries : List (String × Targets)) (made : Registry × Interner) :
    Registry × Interner :=
  entries.foldl (fun (r, t) (s, set) => (r.register (t.intern s).1 set, (t.intern s).2)) made

/-- The registry that is made from words and where they are accepted. -/
def ofTexts (entries : List (String × Targets)) (t : Interner) : Registry × Interner :=
  registerTexts entries (.empty, t)

section Register

variable {r : Registry} {t : Interner}

/-- The targets of an interned word are those of its text. -/
theorem targets_intern (hr : r.KnownIn t) (s : String) :
    r.targets (t.intern s).1 = r.targetsOf t s := by
  unfold targetsOf Interner.intern
  cases hs : t.get? s with
  | some n => rfl
  | none =>
      apply hr
      intro s' hs'
      -- the new name is past the end of the table
      exact Nat.lt_irrefl _ (Interner.index_lt_of_get? hs')

/-- **One word more.** -/
theorem targetsOf_register (hr : r.KnownIn t) (s s' : String) (set : Targets) :
    (r.register (t.intern s).1 set).targetsOf (t.intern s).2 s' =
      if s' = s then (r.targetsOf t s).union set else r.targetsOf t s' := by
  split
  case isTrue heq =>
      subst heq
      have htargets := targets_register_self r (t.intern s').1 set
      rw [targetsOf, Interner.get?_intern]
      rw [targets_intern hr] at htargets
      exact htargets
  case isFalse hne =>
      rw [targetsOf, targetsOf, Interner.get?_intern_of_ne t hne]
      cases hs' : t.get? s' with
      | none => rfl
      | some n =>
          have hn : n ≠ (t.intern s).1 := by
            rintro rfl
            exact hne (Interner.get?_inj (t.within_intern s s' _ hs') (t.get?_intern s))
          exact targets_register_of_ne r set hn

/-- A registration with an interned word is known in the table that has it. -/
theorem KnownIn.register (hr : r.KnownIn t) (s : String) (set : Targets) :
    (r.register (t.intern s).1 set).KnownIn (t.intern s).2 := by
  intro n hn
  have hne : n ≠ (t.intern s).1 := by
    rintro rfl
    exact hn s (t.get?_intern s)
  rw [targets_register_of_ne r set hne]
  exact hr n fun s' hs' => hn s' (t.within_intern s s' n hs')

end Register

/-- Registrations by words only add to a table. -/
theorem within_registerTexts (entries : List (String × Targets)) (r : Registry) (t : Interner) :
    t.Within (registerTexts entries (r, t)).2 := by
  induction entries generalizing r t with
  | nil => exact .refl t
  | cons e rest ih => exact (t.within_intern e.1).trans (ih _ _)

/-- **Several words more.** -/
theorem targetsOf_registerTexts (entries : List (String × Targets)) {r : Registry} {t : Interner}
    (hr : r.KnownIn t) (s : String) :
    (registerTexts entries (r, t)).1.targetsOf (registerTexts entries (r, t)).2 s =
      (entries.filter (·.1 = s)).foldl (fun set e => set.union e.2) (r.targetsOf t s) := by
  induction entries generalizing r t with
  | nil => rfl
  | cons e rest ih =>
      obtain ⟨word, set⟩ := e
      have hrest := ih (hr.register word set)
      rw [targetsOf_register hr] at hrest
      refine hrest.trans ?_
      by_cases hs : word = s
      · simp [hs]
      · have hs' : s ≠ word := fun h => hs h.symm
        simp [hs, hs']

/-- So does a whole registry. -/
theorem within_ofTexts (entries : List (String × Targets)) (t : Interner) :
    t.Within (ofTexts entries t).2 :=
  within_registerTexts entries .empty t

/-- What a registry that is made from texts says of a word depends on the entries
alone: it is what the entries of that word say together. -/
theorem targetsOf_ofTexts (entries : List (String × Targets)) (t : Interner) (s : String) :
    (ofTexts entries t).1.targetsOf (ofTexts entries t).2 s =
      (entries.filter (·.1 = s)).foldl (fun set e => set.union e.2) .empty := by
  have hempty : Registry.empty.KnownIn t := fun _ _ => rfl
  have htargets : Registry.empty.targetsOf t s = .empty := by
    unfold targetsOf
    cases t.get? s <;> rfl
  have hmade := targetsOf_registerTexts entries hempty s
  rwa [htargets] at hmade

end Registry

end KernelCheck
