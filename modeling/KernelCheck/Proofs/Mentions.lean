import KernelCheck.Proofs.Nodes
import KernelCheck.Proofs.Storage.Splitting
import Mathlib.Data.List.Nodup

/-!
# The first mention

One search through an expression answers all questions about the variables in it.  It stops at
the first hit, and what it would have met behind that plays no part.  A dimension of a shared
array is searched twice: once for any of the names that are listed as changing, and then for the
variable that the problem is about.

1. `Expr.mentionPaths` — the ways to the mentions in an expression, in source order.  The list of
   mentions is what stands at their ends (`Expr.map_mentionAt`).
2. `Outline.search` — a traversal that remembers its first hit.  It comes to the first hit
   among all visits (`Outline.search_eq`), which is what the search through the expression finds
   (`Expr.firstOccurrence?_eq_search`).
3. `Scope.isVariant_iff` — a name means a variable that changes if the innermost of its bindings
   says so, whatever the others say.
4. `Storage.reported_sizings` — each dimension that the first of the two searches does not pass
   has one problem, about the variable that the second one finds.

`first_mention_found` puts them together.
-/

namespace KernelCheck

/-! ## Mentions along paths -/

/-- The mention that a visit is of. -/
def Visit.mention? : Visit → Option (Name × Span)
  | ident name s => some (name, s)
  | _ => none

namespace Expr

/-- The mention to which a path from the expression leads. -/
def mentionAt (e : Expr) (path : List Descent) : Option (Name × Span) :=
  ((Node.expr e).visitAt path).bind Visit.mention?

/-- The ways to the mentions in an expression, in source order. -/
def mentionPaths (e : Expr) : List (List Descent) :=
  (Node.expr e).paths.filter fun path => (e.mentionAt path).isSome

/-- The paths to mentions are in source order. -/
theorem pairwise_mentionPaths (e : Expr) : e.mentionPaths.Pairwise (List.Lex Descent.Before) :=
  (Node.expr e).pairwise_paths.filter _

/-- The paths to mentions are those that lead to one. -/
theorem mem_mentionPaths_iff {e : Expr} {path : List Descent} :
    path ∈ e.mentionPaths ↔ ∃ o, e.mentionAt path = some o := by
  rw [mentionPaths, List.mem_filter, Option.isSome_iff_exists, Node.mem_paths_iff]
  refine and_iff_right_of_imp ?_
  rintro ⟨o, ho⟩
  obtain ⟨v, hv, -⟩ := Option.bind_eq_some_iff.mp ho
  obtain ⟨n, hn, -⟩ := Option.map_eq_some_iff.mp hv
  exact ⟨n, hn⟩

/-- An expression itself is no mention; its parts may be. -/
theorem filterMap_preorder_node (s : Span) (children : List Outline) :
    ((Outline.node (.expr s) children).preorder fun _ => false).filterMap Visit.mention? =
      (Outline.preorderList (fun _ => false) children).filterMap Visit.mention? := rfl

mutual

/-- The mentions among the visits of a traversal are the mentions in the expression. -/
theorem filterMap_preorder : ∀ e : Expr,
    (e.outline.preorder fun _ => false).filterMap Visit.mention? = e.occurrences
  | .ident .. | .int .. | .float .. | .char .. | .string .. | .sizeOfType .. => rfl
  | .unary _ e _ | .member e _ _ _ | .cast _ e _ => by
      simp [outline, filterMap_preorder_node, Outline.preorderList, occurrences,
        filterMap_preorder e]
  | .binary _ a b _ | .assign _ a b _ | .index a b _ => by
      simp [outline, filterMap_preorder_node, Outline.preorderList, occurrences,
        filterMap_preorder a, filterMap_preorder b]
  | .call f args _ => by
      simp [outline, filterMap_preorder_node, Outline.preorderList, occurrences,
        filterMap_preorder f, filterMap_preorderList args]
  | .ternary c a b _ => by
      simp [outline, filterMap_preorder_node, Outline.preorderList, occurrences,
        filterMap_preorder c, filterMap_preorder a, filterMap_preorder b]
  | .comma parts _ => by
      rw [outline, filterMap_preorder_node, filterMap_preorderList parts, occurrences]

/-- The mentions in the outlines of several expressions. -/
theorem filterMap_preorderList : ∀ es : List Expr,
    (Outline.preorderList (fun _ => false) (outlineList es)).filterMap Visit.mention? =
      occurrencesList es
  | [] => rfl
  | e :: rest => by
      rw [outlineList, Outline.preorderList, List.filterMap_append, filterMap_preorder e,
        filterMap_preorderList rest, occurrencesList]

end

/-- **Each mention has a way of its own**, and their order is that of the ways. -/
theorem map_mentionAt (e : Expr) : e.mentionPaths.map e.mentionAt = e.occurrences.map some := by
  have hvisits : (e.outline.preorder fun _ => false).map some =
      (Node.expr e).paths.map (Node.expr e).visitAt := by
    rw [← Node.shown_none]
    exact (Node.expr e).map_preorder _
  have hmentions : e.occurrences = (Node.expr e).paths.filterMap e.mentionAt :=
    calc e.occurrences
        = ((e.outline.preorder fun _ => false).map some).filterMap (·.bind Visit.mention?) := by
          rw [List.filterMap_map, ← filterMap_preorder]
          rfl
      _ = (Node.expr e).paths.filterMap e.mentionAt := by
          rw [hvisits, List.filterMap_map]
          rfl
  rw [hmentions, List.map_filterMap_some_eq_filter_map_isSome, List.filter_map]
  rfl

end Expr

/-! ## A traversal that remembers -/

namespace Outline

variable {α : Type} (hit : Visit → Option α)

mutual

/-- What a traversal has found behind a tree, if it remembers its first hit and enters no further
tree from then on. -/
def search : Outline → Option α → Option α
  | _, some a => some a
  | node visit children, none => searchList children (hit visit)

/-- The same behind several trees. -/
def searchList : List Outline → Option α → Option α
  | [], found => found
  | o :: rest, found => searchList rest (search o found)

end

mutual

/-- What is found in the end is what was found before or else the first hit among all visits. -/
theorem search_eq : ∀ (o : Outline) (found : Option α),
    search hit o found = found.or ((o.preorder fun _ => false).findSome? hit)
  -- what is remembered stands in front of all hits behind it
  | _, some a => by rw [search, Option.some_or]
  | node visit children, none => by
      rw [search, searchList_eq children, Option.none_or, preorder, List.findSome?_cons]
      cases hit visit <;> rfl

/-- The same for several outlines. -/
theorem searchList_eq : ∀ (os : List Outline) (found : Option α),
    searchList hit os found = found.or ((preorderList (fun _ => false) os).findSome? hit)
  | [], found => by rw [searchList, preorderList, List.findSome?_nil, Option.or_none]
  | o :: rest, found => by
      rw [searchList, searchList_eq rest, search_eq o, preorderList, List.findSome?_append,
        Option.or_assoc]

end

end Outline

/-- The mention that a visit is of, if its variable satisfies `p`. -/
def Visit.mentionOf? (p : Name → Bool) (v : Visit) : Option (Name × Span) :=
  v.mention?.filter fun o => p o.1

namespace Expr

/-- **Stopping early.**  The search through an expression finds what a traversal of its outline
comes to that remembers its first hit. -/
theorem firstOccurrence?_eq_search (p : Name → Bool) (e : Expr) :
    e.firstOccurrence? p = e.outline.search (Visit.mentionOf? p) none := by
  rw [firstOccurrence?_eq_find?, Outline.search_eq, Option.none_or, ← filterMap_preorder,
    ← List.head?_filter, List.filter_filterMap, List.head?_filterMap]
  rfl

end Expr

/-! ## Bindings that count -/

namespace Scope

/-- The binding is the innermost one of its name. -/
def Counts (s : Scope) (b : Binding) : Prop :=
  ∃ inner outer, s.bindings = inner ++ b :: outer ∧ ∀ c ∈ inner, c.name ≠ b.name

/-- **Shadowing.**  A name means a variable that changes if its innermost binding is marked. -/
theorem isVariant_iff {s : Scope} {name : Name} :
    s.isVariant name = true ↔ s.Counts ⟨name, true⟩ := by
  have hfind : s.isVariant name = true ↔
      ∃ b, s.bindings.find? (·.name == name) = some b ∧ b.variant = true := by
    cases h : s.bindings.find? (·.name == name) <;> simp [isVariant, h]
  rw [hfind]
  simp only [List.find?_eq_some_iff_append]
  constructor
  · rintro ⟨b, ⟨hname, inner, outer, hbindings, hinner⟩, hvariant⟩
    -- the binding that is found is known: it has this name, and it is marked
    have hb : b = ⟨name, true⟩ := by
      obtain ⟨bname, bvariant⟩ := b
      simp_all
    exact ⟨inner, outer, hb ▸ hbindings, by simpa using hinner⟩
  · rintro ⟨inner, outer, hbindings, hinner⟩
    exact ⟨⟨name, true⟩, ⟨by simp, inner, outer, hbindings, by simpa using hinner⟩, rfl⟩

/-- The names that change are those whose first binding is marked. -/
theorem mem_variantNames_iff {s : Scope} {name : Name} :
    name ∈ s.variantNames ↔ s.Counts ⟨name, true⟩ :=
  mem_variantNames.trans isVariant_iff

/-- No name is listed twice. -/
theorem nodup_variantNames (s : Scope) : s.variantNames.Nodup := by
  refine List.foldlRecOn s.bindings _ List.nodup_nil ?_
  intro names hnames b _
  split
  case isTrue hnew =>
      have hname : b.name ∉ names := by simpa using (Bool.and_eq_true_iff.mp hnew).1
      exact List.Nodup.append hnames (List.nodup_singleton b.name)
        (List.disjoint_singleton.mpr hname)
  case isFalse => exact hnames

/-- The two searches of a dimension agree: a listed name is mentioned just if a variable that
changes is found. -/
theorem avoids_eq_false_iff {s : Scope} {dim : Expr} :
    dim.avoids s.variantNames = false ↔ ∃ o, s.firstVariant? dim = some o := by
  rw [avoids_variantNames, Option.isNone_eq_false_iff, Option.isSome_iff_exists]

/-- Something is found if a mentioned name has a marked first binding. -/
theorem exists_firstVariant?_iff {s : Scope} {dim : Expr} :
    (∃ o, s.firstVariant? dim = some o) ↔ ∃ o ∈ dim.occurrences, s.Counts ⟨o.1, true⟩ := by
  rw [← Option.isSome_iff_exists, firstVariant?, Expr.firstOccurrence?_eq_find?,
    List.find?_isSome]
  simp only [isVariant_iff]

/-- `n + o` where an `n` that does not change hides one that does. -/
example :
    let s : Scope := ⟨[], [⟨⟨1⟩, false⟩, ⟨⟨2⟩, true⟩, ⟨⟨1⟩, true⟩]⟩
    let dim : Expr := .binary .add (.ident ⟨1⟩ ⟨0, 1⟩) (.ident ⟨2⟩ ⟨4, 5⟩) ⟨0, 5⟩
    dim.avoids s.variantNames = false ∧ s.firstVariant? dim = some (⟨2⟩, ⟨4, 5⟩) := by
  decide

end Scope

/-! ## One problem for each dimension -/

/-- The dimensions of a shared declaration in source order, each in the scope of the whole
declaration.  Other declarations have none that are judged. -/
def Declaration.judgedSizings (d : Declaration) (s : Scope) : List Sizing :=
  if d.role = .shared then
    d.declarators.flatMap fun array => array.dims.map (⟨s, array.name, ·⟩)
  else []

/-- Those of all declarations of a kernel. -/
def Function.judgedSizings (kernel : Function) : List Sizing :=
  kernel.judged.flatMap fun j => j.2.judgedSizings j.1

namespace Sizing

/-- The dimension mentions a name that is listed as changing, so it is not passed. -/
def isHeld (z : Sizing) : Bool := !z.dim.avoids z.scope.variantNames

/-- What is pushed for the dimension, if anything. -/
def problem? (z : Sizing) : Option Problem :=
  Storage.boundProblem? z.scope z.scope.variantNames z.array z.dim

/-- The problem is about this dimension, and about the variable in it that changes and is mentioned
first. -/
def IsReportedAs (z : Sizing) (p : Problem) : Prop :=
  ∃ o, z.scope.firstVariant? z.dim = some o ∧ p = .variantBound z.dim.span z.array o.1 o.2

/-- What is held is reported: the second search finds a variable wherever the first one finds a
listed name. -/
theorem exists_problem? {z : Sizing} (h : z.isHeld = true) :
    ∃ p, z.problem? = some p ∧ z.IsReportedAs p := by
  have hlisted : z.dim.avoids z.scope.variantNames = false := by simpa [isHeld] using h
  obtain ⟨o, ho⟩ := Scope.avoids_eq_false_iff.mp hlisted
  refine ⟨.variantBound z.dim.span z.array o.1 o.2, ?_, o, ho, rfl⟩
  rw [problem?, Storage.boundProblem?_eq_map, ho]
  rfl

/-- A dimension that holds no name that changes has no problem. -/
theorem problem?_eq_none {z : Sizing} (h : z.isHeld = false) : z.problem? = none := by
  have hpassed : z.dim.avoids z.scope.variantNames = true := by simpa [isHeld] using h
  exact if_pos hpassed

/-- Of several dimensions, those that are held have one problem each. -/
theorem reported_filterMap (zs : List Sizing) :
    List.Forall₂ IsReportedAs (zs.filter (·.isHeld)) (zs.filterMap problem?) := by
  induction zs with
  | nil => exact .nil
  | cons z rest ih =>
      by_cases hheld : z.isHeld = true
      · obtain ⟨p, hp, hreported⟩ := exists_problem? hheld
        rw [List.filter_cons_of_pos hheld, List.filterMap_cons_some hp]
        exact .cons hreported ih
      · have hpassed : z.isHeld = false := by simpa using hheld
        rw [List.filter_cons_of_neg hheld, List.filterMap_cons_none (problem?_eq_none hpassed)]
        exact ih

end Sizing

namespace Storage

/-- The problems with the dimensions of a declaration, dimension by dimension. -/
theorem variantBounds_eq_filterMap (s : Scope) (d : Declaration) :
    variantBounds [(s, d)] = (d.judgedSizings s).filterMap Sizing.problem? := by
  rw [variantBounds_singleton, Declaration.judgedSizings]
  split
  · simp only [boundProblems, List.filterMap_flatMap, List.filterMap_map]
    rfl
  · rfl

/-- **Every dimension that is held is reported**, once and in its place, and no other. -/
theorem reported_sizings (js : List (Scope × Declaration)) :
    List.Forall₂ Sizing.IsReportedAs
      ((js.flatMap fun j => j.2.judgedSizings j.1).filter (·.isHeld)) (variantBounds js) := by
  induction js with
  | nil => exact .nil
  | cons j rest ih =>
      have hone : List.Forall₂ Sizing.IsReportedAs ((j.2.judgedSizings j.1).filter (·.isHeld))
          (variantBounds [j]) := by
        rw [variantBounds_eq_filterMap]
        exact Sizing.reported_filterMap _
      rw [List.flatMap_cons, List.filter_append, ← List.singleton_append, variantBounds_append]
      exact List.rel_append hone ih

/-- A declaration appends the problem with its place and those with its dimensions. -/
theorem declaration_findings (d : Declaration) (s : Scope) (f : Findings) :
    (declaration d s f).2 =
      f.pushAll ((roleProblem? s d).toList ++ variantBounds [(s, d)]) := by
  rw [(declaration_eq d s f).findings, variantBounds_singleton, problemsOfJudged,
    List.flatMap_singleton]
  rfl

end Storage

/-- What a search for a mention finds.

* The mentions in an expression are listed from left to right: each one stands at the end of a path
  of its own, and the list goes along these paths in source order, with none left out.
* The search finds the first one in this list whose variable satisfies the test, and nothing just
  if none does.  A traversal that stops at its first hit comes to the same.
* A variable is mentioned if it is one of those in the list, and names are avoided if none of them
  is.
* The names that are listed as changing are, each once, those whose innermost binding is marked.  A
  dimension fails to avoid them just if a variable that changes is found in it, in every scope.
* So a declaration has, behind a problem with its place, exactly one problem for each dimension of a
  shared array that does not avoid them, about the first variable in it that changes.  These are
  pushed in order, whatever was found before, and a whole kernel has no other problems with
  dimensions. -/
theorem first_mention_found :
    (∀ e : Expr,
      e.mentionPaths.Pairwise (List.Lex Descent.Before) ∧
      (∀ path, path ∈ e.mentionPaths ↔ ∃ o, e.mentionAt path = some o) ∧
      e.mentionPaths.map e.mentionAt = e.occurrences.map some) ∧
    (∀ (e : Expr) (p : Name → Bool),
      e.firstOccurrence? p = (e.occurrences.find? fun o => p o.1) ∧
      (e.firstOccurrence? p = none ↔ ∀ o ∈ e.occurrences, p o.1 = false) ∧
      e.firstOccurrence? p = e.outline.search (Visit.mentionOf? p) none) ∧
    (∀ (e : Expr) (name : Name), e.mentions name = true ↔ ∃ o ∈ e.occurrences, o.1 = name) ∧
    (∀ (e : Expr) (excluded : List Name),
      e.avoids excluded = true ↔ ¬ ∃ o ∈ e.occurrences, o.1 ∈ excluded) ∧
    (∀ s : Scope,
      s.variantNames.Nodup ∧ (∀ name, name ∈ s.variantNames ↔ s.Counts ⟨name, true⟩) ∧
      ∀ dim : Expr,
        (dim.avoids s.variantNames = false ↔ ∃ o, s.firstVariant? dim = some o) ∧
        ((∃ o, s.firstVariant? dim = some o) ↔ ∃ o ∈ dim.occurrences, s.Counts ⟨o.1, true⟩)) ∧
    (∀ (s : Scope) (d : Declaration), ∃ ps,
      List.Forall₂ Sizing.IsReportedAs ((d.judgedSizings s).filter (·.isHeld)) ps ∧
      ∀ f, (Storage.declaration d s f).2 =
        f.pushAll ((Storage.roleProblem? s d).toList ++ ps)) ∧
    ∀ (kernel : Function) (names : Interner) (registry : Registry),
      List.Forall₂ Sizing.IsReportedAs (kernel.judgedSizings.filter (·.isHeld))
        (kernel.variantBounds names registry) := by
  refine ⟨?_, ?_, ?_, ?_, ?_, ?_, ?_⟩
  · intro e
    exact ⟨e.pairwise_mentionPaths, fun _ => Expr.mem_mentionPaths_iff, e.map_mentionAt⟩
  · intro e p
    exact ⟨Expr.firstOccurrence?_eq_find? p e, Expr.firstOccurrence?_eq_none_iff,
      Expr.firstOccurrence?_eq_search p e⟩
  · intro e name
    exact Expr.mentions_iff
  · intro e excluded
    exact Expr.avoids_iff
  · intro s
    exact ⟨s.nodup_variantNames, fun _ => Scope.mem_variantNames_iff,
      fun _ => ⟨Scope.avoids_eq_false_iff, Scope.exists_firstVariant?_iff⟩⟩
  · intro s d
    refine ⟨Storage.variantBounds [(s, d)], ?_, Storage.declaration_findings d s⟩
    simpa using Storage.reported_sizings [(s, d)]
  · intro kernel names registry
    rw [Function.variantBounds_eq]
    exact Storage.reported_sizings kernel.judged

end KernelCheck
