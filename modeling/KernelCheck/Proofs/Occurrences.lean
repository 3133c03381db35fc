import KernelCheck.Rule.Storage
import Mathlib.Data.List.Find

/-!
# Mentions of variables

The search for the first mention of a variable goes down the expression tree and
stops early.  It finds what a search through the list of all mentions finds.

* `Expr.firstOccurrence?_eq_find?` — the two searches agree.
* `Expr.mentions_iff`, `Expr.avoids_iff` — what the two tests say of the list.
* `Scope.mem_variantNames` — the names that are listed as changing are those that
  change.
* `Scope.avoids_variantNames` — a dimension that avoids these names mentions no
  variable that changes, and the other way round.
-/

namespace KernelCheck

namespace Expr

mutual

/-- The first mention that satisfies a test is the first such in the list of all
mentions. -/
theorem firstOccurrence?_eq_find? (p : Name → Bool) :
    ∀ e : Expr, e.firstOccurrence? p = e.occurrences.find? fun o => p o.1
  | .ident name s => by
      cases hp : p name <;> simp [firstOccurrence?, occurrences, hp]
  | .int .. | .float .. | .char .. | .string .. | .sizeOfType .. => rfl
  | .unary _ e _ | .member e _ _ _ | .cast _ e _ => firstOccurrence?_eq_find? p e
  | .binary _ a b _ | .assign _ a b _ | .index a b _ => by
      rw [firstOccurrence?, occurrences, firstOccurrence?_eq_find? p a,
        firstOccurrence?_eq_find? p b, List.find?_append]
      exact Option.orElse_eq_or ..
  | .call f args _ => by
      rw [firstOccurrence?, occurrences, firstOccurrence?_eq_find? p f,
        firstOccurrenceList?_eq_find? p args, List.find?_append]
      exact Option.orElse_eq_or ..
  | .ternary c a b _ => by
      rw [firstOccurrence?, occurrences, firstOccurrence?_eq_find? p c,
        firstOccurrence?_eq_find? p a, firstOccurrence?_eq_find? p b, List.find?_append,
        List.find?_append]
      simp only [Option.orElse_eq_orElse, Option.orElse_eq_or]
  | .comma parts _ => firstOccurrenceList?_eq_find? p parts

/-- The same for several expressions. -/
theorem firstOccurrenceList?_eq_find? (p : Name → Bool) :
    ∀ es : List Expr,
      firstOccurrenceList? p es = (occurrencesList es).find? fun o => p o.1
  | [] => rfl
  | e :: rest => by
      rw [firstOccurrenceList?, occurrencesList, firstOccurrence?_eq_find? p e,
        firstOccurrenceList?_eq_find? p rest, List.find?_append]
      exact Option.orElse_eq_or ..

end

/-- The search only asks about names that are mentioned. -/
theorem firstOccurrence?_congr {p q : Name → Bool} {e : Expr}
    (h : ∀ o ∈ e.occurrences, p o.1 = q o.1) : e.firstOccurrence? p = e.firstOccurrence? q := by
  rw [firstOccurrence?_eq_find?, firstOccurrence?_eq_find?]
  exact List.find?_congr h

/-- Nothing is found if no mentioned name passes the test. -/
theorem firstOccurrence?_eq_none_iff {p : Name → Bool} {e : Expr} :
    e.firstOccurrence? p = none ↔ ∀ o ∈ e.occurrences, p o.1 = false := by
  rw [firstOccurrence?_eq_find?, List.find?_eq_none]
  simp only [Bool.not_eq_true]

/-- An expression mentions a name if the name is among its occurrences. -/
theorem mentions_iff {e : Expr} {var : Name} :
    e.mentions var = true ↔ ∃ o ∈ e.occurrences, o.1 = var := by
  rw [mentions, firstOccurrence?_eq_find?, List.find?_isSome]
  simp

/-- An expression avoids some names if none of its occurrences is of one of them. -/
theorem avoids_iff {e : Expr} {excluded : List Name} :
    e.avoids excluded = true ↔ ¬ ∃ o ∈ e.occurrences, o.1 ∈ excluded := by
  rw [avoids, Option.isNone_iff_eq_none, firstOccurrence?_eq_none_iff]
  simp

end Expr

namespace Scope

/-- A name that changes has a binding. -/
theorem exists_binding_of_isVariant {s : Scope} {name : Name} (h : s.isVariant name) :
    ∃ b ∈ s.bindings, b.name = name := by
  unfold isVariant at h
  cases hfind : s.bindings.find? (·.name == name) with
  | none => rw [hfind] at h; cases h
  | some b => exact ⟨b, List.mem_of_find?_eq_some hfind, by simpa using List.find?_some hfind⟩

/-- The names that change are listed, and no others. -/
theorem mem_variantNames {s : Scope} {name : Name} :
    name ∈ s.variantNames ↔ s.isVariant name = true := by
  have hfold : ∀ (bs : List Binding) (names : List Name),
      name ∈ bs.foldl (fun names b =>
        if !names.contains b.name && s.isVariant b.name then names ++ [b.name] else names) names ↔
        name ∈ names ∨ (s.isVariant name = true ∧ ∃ b ∈ bs, b.name = name) := by
    intro bs
    induction bs with
    | nil => simp
    | cons b rest ih =>
        intro names
        rw [List.foldl_cons, ih]
        by_cases hb : b.name = name
        · subst hb
          cases hv : s.isVariant b.name <;> by_cases hmem : b.name ∈ names <;> simp [hmem]
        · have hne : ¬ name = b.name := fun h => hb h.symm
          split <;> simp [hb, hne]
  rw [variantNames, hfold]
  constructor
  · rintro (h | h)
    · cases h
    · exact h.1
  · intro h
    exact Or.inr ⟨h, exists_binding_of_isVariant h⟩

/-- An expression avoids the listed names if it mentions no variable that changes. -/
theorem avoids_variantNames (s : Scope) (e : Expr) :
    e.avoids s.variantNames = (s.firstVariant? e).isNone := by
  have hcongr : e.firstOccurrence? s.variantNames.contains = e.firstOccurrence? s.isVariant := by
    apply Expr.firstOccurrence?_congr
    intro o _
    rw [Bool.eq_iff_iff, List.contains_iff_mem, mem_variantNames]
  rw [Expr.avoids, hcongr, firstVariant?]

end Scope

/-- The problem with a dimension is about the first variable in it that changes. -/
theorem Storage.boundProblem?_eq_map (s : Scope) (array : Name) (dim : Expr) :
    boundProblem? s s.variantNames array dim =
      (s.firstVariant? dim).map fun o => .variantBound dim.span array o.1 o.2 := by
  unfold boundProblem?
  rw [Scope.avoids_variantNames]
  cases s.firstVariant? dim <;> rfl

end KernelCheck
