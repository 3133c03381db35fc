import KernelCheck.Proofs.Occurrences

/-!
# Two stacks of bindings

Two stacks of bindings, a lower and an upper one, that belong to the same point
of a kernel.  The upper one knows at least as much.  A name without a binding
gets one when it is marked, so either stack can have a binding that the other
lacks; a list of entries says how the two belong together.

* `Pairing.Fits` — the upper stack knows at least as much at every entry.
* `Pairing.Fits.marked_mono` — so every name that is marked in the lower stack is
  marked in the upper one.
* `Pairing.Fits.markUpper`, `Pairing.Fits.markBoth` — what marks do to entries.
* `Pairing.Grown.cut` — when a scope ends, both stacks are cut at the same entry.
-/

namespace KernelCheck

/-! ## Look-ups and marks in a list of bindings -/

namespace Binding

/-- The first binding of a name, if there is one, is marked. -/
def marked (bs : List Binding) (name : Name) : Bool :=
  ((bs.find? (·.name == name)).map (·.variant)).getD false

/-- The names that are bound. -/
def names (bs : List Binding) : List Name := bs.map (·.name)

variable {bs bs' : List Binding} {name : Name}

@[simp] theorem marked_cons (b : Binding) (bs : List Binding) (name : Name) :
    marked (b :: bs) name = if b.name = name then b.variant else marked bs name := by
  by_cases h : b.name = name <;> simp [marked, h]

@[simp] theorem names_cons (b : Binding) (bs : List Binding) :
    names (b :: bs) = b.name :: names bs := rfl

/-- A marked name is bound. -/
theorem mem_names_of_marked (h : marked bs name = true) : name ∈ names bs := by
  obtain ⟨b, hb, rfl⟩ := Scope.exists_binding_of_isVariant (s := ⟨[], bs⟩) h
  exact List.mem_map_of_mem hb

/-- A name without a binding cannot be marked. -/
theorem markFirst?_eq_none (h : name ∉ names bs) : Scope.markFirst? name bs = none := by
  induction bs with
  | nil => rfl
  | cons b rest ih =>
      rw [names_cons, List.mem_cons, not_or] at h
      rw [Scope.markFirst?, if_neg (Ne.symm h.1), ih h.2]
      rfl

/-- Marking a name keeps the names. -/
theorem names_markFirst? (h : Scope.markFirst? name bs = some bs') : names bs' = names bs := by
  induction bs generalizing bs' with
  | nil => cases h
  | cons b rest ih =>
      by_cases hb : b.name = name
      · rw [Scope.markFirst?, if_pos hb] at h
        cases h
        rfl
      · rw [Scope.markFirst?, if_neg hb] at h
        obtain ⟨rest', hrest, rfl⟩ := Option.map_eq_some_iff.mp h
        rw [names_cons, names_cons, ih hrest]

/-- Marking a name marks it, and keeps every mark. -/
theorem marked_markFirst? (h : Scope.markFirst? name bs = some bs') (other : Name) :
    marked bs' other = (other == name || marked bs other) := by
  induction bs generalizing bs' with
  | nil => cases h
  | cons b rest ih =>
      by_cases hb : b.name = name
      · rw [Scope.markFirst?, if_pos hb] at h
        cases h
        by_cases hother : b.name = other
        · simp [← hother, ← hb]
        · simp [hother, ← hb, Ne.symm hother]
      · rw [Scope.markFirst?, if_neg hb] at h
        obtain ⟨rest', hrest, rfl⟩ := Option.map_eq_some_iff.mp h
        by_cases hother : b.name = other
        · have hne : (other == name) = false := by simpa [← hother] using hb
          simp [hother, hne]
        · simp [hother, ih hrest]

/-- Marking a marked name changes nothing. -/
theorem markFirst?_of_marked (h : marked bs name = true) :
    Scope.markFirst? name bs = some bs := by
  induction bs with
  | nil => cases h
  | cons b rest ih =>
      rw [marked_cons] at h
      by_cases hb : b.name = name
      · rw [if_pos hb] at h
        rw [Scope.markFirst?, if_pos hb, ← h]
      · rw [if_neg hb] at h
        rw [Scope.markFirst?, if_neg hb, ih h]
        rfl

end Binding

namespace Scope

/-- A mark of a name without a binding binds it. -/
theorem setVariant_of_unbound {s : Scope} {name : Name} (h : name ∉ Binding.names s.bindings) :
    s.setVariant name = s.bind name true := by
  rw [setVariant, Binding.markFirst?_eq_none h]

/-- A mark of a bound name stays in its first binding. -/
theorem setVariant_of_markFirst? {s : Scope} {name : Name} {bs : List Binding}
    (h : markFirst? name s.bindings = some bs) :
    s.setVariant name = { s with bindings := bs } := by
  rw [setVariant, h]

end Scope

/-! ## Entries -/

/-- A binding of the lower scope, of the upper scope, or of both.  A binding that
only the lower scope has is there because the name was marked. -/
inductive Entry where
  | both (name : Name) (lower upper : Bool)
  | onlyLower (name : Name)
  | onlyUpper (name : Name) (variant : Bool)

namespace Entry

/-- The binding in the lower scope. -/
def lower? : Entry → Option Binding
  | both name variant _ => some ⟨name, variant⟩
  | onlyLower name => some ⟨name, true⟩
  | onlyUpper .. => none

/-- The binding in the upper scope. -/
def upper? : Entry → Option Binding
  | both name _ variant => some ⟨name, variant⟩
  | onlyLower _ => none
  | onlyUpper name variant => some ⟨name, variant⟩

/-- The entry without its marks. -/
def blank : Entry → Entry
  | both name _ _ => both name false false
  | onlyLower name => onlyLower name
  | onlyUpper name _ => onlyUpper name false

end Entry

/-- How two stacks of bindings belong together, innermost entries first. -/
abbrev Pairing := List Entry

namespace Pairing

/-- The bindings of the lower scope. -/
def lower (E : Pairing) : List Binding := E.filterMap Entry.lower?

/-- The bindings of the upper scope. -/
def upper (E : Pairing) : List Binding := E.filterMap Entry.upper?

@[simp] theorem lower_both (name : Name) (b b' : Bool) (E : Pairing) :
    lower (.both name b b' :: E) = ⟨name, b⟩ :: lower E := rfl

@[simp] theorem upper_both (name : Name) (b b' : Bool) (E : Pairing) :
    upper (.both name b b' :: E) = ⟨name, b'⟩ :: upper E := rfl

@[simp] theorem lower_onlyLower (name : Name) (E : Pairing) :
    lower (.onlyLower name :: E) = ⟨name, true⟩ :: lower E := rfl

@[simp] theorem upper_onlyLower (name : Name) (E : Pairing) :
    upper (.onlyLower name :: E) = upper E := rfl

@[simp] theorem lower_onlyUpper (name : Name) (b : Bool) (E : Pairing) :
    lower (.onlyUpper name b :: E) = lower E := rfl

@[simp] theorem upper_onlyUpper (name : Name) (b : Bool) (E : Pairing) :
    upper (.onlyUpper name b :: E) = ⟨name, b⟩ :: upper E := rfl

/-- The upper stack knows at least as much at every entry.  A binding that only
the lower stack has marks a name that is marked in the upper one; a binding that
only the upper stack has is the first of its name in either. -/
inductive Fits : Pairing → Prop
  | nil : Fits []
  | both {E : Pairing} (name : Name) {b b' : Bool} (hmark : b = true → b' = true) (tail : Fits E) :
      Fits (.both name b b' :: E)
  | onlyLower {E : Pairing} {name : Name} (hlower : name ∉ Binding.names (lower E))
      (hmark : Binding.marked (upper E) name = true) (tail : Fits E) : Fits (.onlyLower name :: E)
  | onlyUpper {E : Pairing} {name : Name} (b : Bool) (hlower : name ∉ Binding.names (lower E))
      (hupper : name ∉ Binding.names (upper E)) (tail : Fits E) : Fits (.onlyUpper name b :: E)

/-- The upper stack binds every name of the lower one. -/
theorem Fits.names_subset {E : Pairing} (h : Fits E) :
    Binding.names (lower E) ⊆ Binding.names (upper E) := by
  induction h with
  | nil => exact List.Subset.refl _
  | both name _ _ ih => exact List.cons_subset_cons name ih
  | onlyLower _ hmark _ ih => exact List.cons_subset.mpr ⟨Binding.mem_names_of_marked hmark, ih⟩
  | onlyUpper b _ _ _ ih => exact List.subset_cons_of_subset _ ih

/-- And every mark of the lower stack is one of the upper one. -/
theorem Fits.marked_mono {E : Pairing} (h : Fits E) {name : Name}
    (hname : Binding.marked (lower E) name = true) : Binding.marked (upper E) name = true := by
  induction h with
  | nil => exact hname
  | both n hmark _ ih =>
      rw [lower_both, Binding.marked_cons] at hname
      rw [upper_both, Binding.marked_cons]
      split
      · rename_i hn
        exact hmark (by rwa [if_pos hn] at hname)
      · rename_i hn
        exact ih (by rwa [if_neg hn] at hname)
  | @onlyLower E n _ hmark _ ih =>
      rw [lower_onlyLower, Binding.marked_cons] at hname
      by_cases hn : n = name
      · exact hn ▸ hmark
      · exact ih (by rwa [if_neg hn] at hname)
  | @onlyUpper E n b hlower _ _ ih =>
      have hn : ¬ n = name := fun hn => hlower (hn ▸ Binding.mem_names_of_marked hname)
      rw [upper_onlyUpper, Binding.marked_cons, if_neg hn]
      exact ih hname

/-- A name that is bound in the upper stack can be marked there alone. -/
theorem Fits.markUpper {E : Pairing} (h : Fits E) {name : Name}
    (hname : name ∈ Binding.names (upper E)) :
    ∃ E' : Pairing, Fits E' ∧ E'.map Entry.blank = E.map Entry.blank ∧ lower E' = lower E ∧
      Scope.markFirst? name (upper E) = some (upper E') := by
  induction h with
  | nil => cases hname
  | @both E n b b' hmark htail ih =>
      by_cases hn : n = name
      · refine ⟨.both n b true :: E, .both n (fun _ => rfl) htail, rfl, rfl, ?_⟩
        rw [upper_both, Scope.markFirst?, if_pos hn]
        rfl
      · obtain ⟨E', hfits, hblank, hlower, hupper⟩ :=
          ih ((List.mem_cons.mp hname).resolve_left (Ne.symm hn))
        refine ⟨.both n b b' :: E', .both n hmark hfits, ?_, ?_, ?_⟩
        · rw [List.map_cons, List.map_cons, hblank]
        · rw [lower_both, lower_both, hlower]
        · rw [upper_both, Scope.markFirst?, if_neg hn, hupper]
          rfl
  | @onlyLower E n hfree hmark htail ih =>
      obtain ⟨E', hfits, hblank, hlower, hupper⟩ := ih hname
      refine ⟨.onlyLower n :: E', .onlyLower ?_ ?_ hfits, ?_, ?_, hupper⟩
      · rwa [hlower]
      · rw [Binding.marked_markFirst? hupper, hmark, Bool.or_true]
      · rw [List.map_cons, List.map_cons, hblank]
      · rw [lower_onlyLower, lower_onlyLower, hlower]
  | @onlyUpper E n b hlower hupper htail ih =>
      by_cases hn : n = name
      · refine ⟨.onlyUpper n true :: E, .onlyUpper true hlower hupper htail, rfl, rfl, ?_⟩
        rw [upper_onlyUpper, Scope.markFirst?, if_pos hn]
        rfl
      · obtain ⟨E', hfits, hblank, hlower', hupper'⟩ :=
          ih ((List.mem_cons.mp hname).resolve_left (Ne.symm hn))
        refine ⟨.onlyUpper n b :: E', .onlyUpper b ?_ ?_ hfits, ?_, hlower', ?_⟩
        · rwa [hlower']
        · rwa [Binding.names_markFirst? hupper']
        · rw [List.map_cons, List.map_cons, hblank]
        · rw [upper_onlyUpper, Scope.markFirst?, if_neg hn, hupper']
          rfl

/-- A name that is bound in the lower stack can be marked in both.  The two first
bindings belong together, unless the lower one is marked anyway. -/
theorem Fits.markBoth {E : Pairing} (h : Fits E) {name : Name}
    (hname : name ∈ Binding.names (lower E)) :
    ∃ E' : Pairing, Fits E' ∧ E'.map Entry.blank = E.map Entry.blank ∧
      Scope.markFirst? name (lower E) = some (lower E') ∧
        Scope.markFirst? name (upper E) = some (upper E') := by
  induction h with
  | nil => cases hname
  | @both E n b b' hmark htail ih =>
      by_cases hn : n = name
      · refine ⟨.both n true true :: E, .both n (fun _ => rfl) htail, rfl, ?_, ?_⟩
        · rw [lower_both, Scope.markFirst?, if_pos hn]
          rfl
        · rw [upper_both, Scope.markFirst?, if_pos hn]
          rfl
      · obtain ⟨E', hfits, hblank, hlower, hupper⟩ :=
          ih ((List.mem_cons.mp hname).resolve_left (Ne.symm hn))
        refine ⟨.both n b b' :: E', .both n hmark hfits, ?_, ?_, ?_⟩
        · rw [List.map_cons, List.map_cons, hblank]
        · rw [lower_both, Scope.markFirst?, if_neg hn, hlower]
          rfl
        · rw [upper_both, Scope.markFirst?, if_neg hn, hupper]
          rfl
  | @onlyLower E n hfree hmark htail ih =>
      by_cases hn : n = name
      · refine ⟨.onlyLower n :: E, .onlyLower hfree hmark htail, rfl, ?_, ?_⟩
        · rw [lower_onlyLower, Scope.markFirst?, if_pos hn]
        · exact Binding.markFirst?_of_marked (hn ▸ hmark)
      · obtain ⟨E', hfits, hblank, hlower, hupper⟩ :=
          ih ((List.mem_cons.mp hname).resolve_left (Ne.symm hn))
        refine ⟨.onlyLower n :: E', .onlyLower ?_ ?_ hfits, ?_, ?_, hupper⟩
        · rwa [Binding.names_markFirst? hlower]
        · rw [Binding.marked_markFirst? hupper, hmark, Bool.or_true]
        · rw [List.map_cons, List.map_cons, hblank]
        · rw [lower_onlyLower, Scope.markFirst?, if_neg hn, hlower]
          rfl
  | @onlyUpper E n b hfree hfree' htail ih =>
      have hn : ¬ n = name := fun hn => hfree (hn ▸ hname)
      obtain ⟨E', hfits, hblank, hlower, hupper⟩ := ih hname
      refine ⟨.onlyUpper n b :: E', .onlyUpper b ?_ ?_ hfits, ?_, hlower, ?_⟩
      · rwa [Binding.names_markFirst? hlower]
      · rwa [Binding.names_markFirst? hupper]
      · rw [List.map_cons, List.map_cons, hblank]
      · rw [upper_onlyUpper, Scope.markFirst?, if_neg hn, hupper]
        rfl

/-! ## Cutting both stacks -/

@[simp] theorem lower_append (E F : Pairing) : lower (E ++ F) = lower E ++ lower F :=
  List.filterMap_append

@[simp] theorem upper_append (E F : Pairing) : upper (E ++ F) = upper E ++ upper F :=
  List.filterMap_append

/-- Forgetting marks leaves the height of the lower stack. -/
theorem length_lower_blank (E : Pairing) : (lower (E.map Entry.blank)).length = (lower E).length := by
  induction E with
  | nil => rfl
  | cons e rest ih => cases e <;> simpa [Entry.blank] using ih

/-- And that of the upper one. -/
theorem length_upper_blank (E : Pairing) : (upper (E.map Entry.blank)).length = (upper E).length := by
  induction E with
  | nil => rfl
  | cons e rest ih => cases e <;> simpa [Entry.blank] using ih

/-- What is below the newer entries still fits. -/
theorem Fits.of_append {new old : Pairing} (h : Fits (new ++ old)) : Fits old := by
  induction new with
  | nil => exact h
  | cons e rest ih =>
      apply ih
      cases h with
      | both _ _ tail => exact tail
      | onlyLower _ _ tail => exact tail
      | onlyUpper _ _ _ tail => exact tail

/-- The entries of the second pairing are new ones in front of those of the first,
which may have got marks in the meantime. -/
def Grown (E E' : Pairing) : Prop := E.map Entry.blank <:+ E'.map Entry.blank

/-- A pairing has grown by nothing. -/
theorem Grown.refl (E : Pairing) : Grown E E := List.suffix_rfl

/-- Growing twice is growing. -/
theorem Grown.trans {E E' E'' : Pairing} (h : Grown E E') (h' : Grown E' E'') : Grown E E'' :=
  List.IsSuffix.trans h h'

/-- A further entry makes it grow. -/
theorem Grown.cons (e : Entry) (E : Pairing) : Grown E (e :: E) := List.suffix_cons _ _

/-- Marks alone do not make it grow. -/
theorem Grown.of_blank_eq {E E' : Pairing} (h : E'.map Entry.blank = E.map Entry.blank) :
    Grown E E' :=
  ⟨[], h.symm⟩

/-- Both stacks can be cut back to the old entries at once. -/
theorem Grown.cut {E E' : Pairing} (h : Grown E E') (hfits : Fits E') :
    ∃ old : Pairing, Fits old ∧ Grown E old ∧
      (lower E').drop ((lower E').length - (lower E).length) = lower old ∧
        (upper E').drop ((upper E').length - (upper E).length) = upper old := by
  obtain ⟨blanks, hblanks⟩ := h
  obtain ⟨new, old, rfl, -, hold⟩ := List.map_eq_append_iff.mp hblanks.symm
  have hlower : (lower E).length = (lower old).length := by
    rw [← length_lower_blank E, ← length_lower_blank old, hold]
  have hupper : (upper E).length = (upper old).length := by
    rw [← length_upper_blank E, ← length_upper_blank old, hold]
  refine ⟨old, hfits.of_append, of_blank_eq hold, ?_, ?_⟩
  · rw [hlower, lower_append, List.length_append, Nat.add_sub_cancel, List.drop_left]
  · rw [hupper, upper_append, List.length_append, Nat.add_sub_cancel, List.drop_left]

end Pairing

end KernelCheck
