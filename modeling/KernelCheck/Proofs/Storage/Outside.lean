import KernelCheck.Proofs.Extent
import KernelCheck.Proofs.Storage.Lexical
import KernelCheck.Proofs.Storage.SideBySide

/-!
# Variables from outside the kernel

A variable that is declared outside the kernel should be no different from a
parameter.  But a name that has no binding gets one where it is first marked, and
that binding goes away with the scope that the mark was made in; a parameter
keeps its mark to the end of the kernel.

A kernel with a further parameter is therefore compared with the kernel without
it.  The parameter can only add to what changes, and the two verdicts are equal
exactly if none of the bounds owes anything to a mark that the kernel without the
parameter has lost.

* `judged_withParam` — with the parameter at least as much changes, at every
  declaration.
* `problems_withParam_iff` — when the two verdicts list the same problems.
* `problems_withParam_ne` — a kernel for which they do not.
-/

namespace KernelCheck

/-- The kernel with a further parameter behind the first few. -/
def Function.withParam (kernel : Function) (position : Nat) (p : Param) : Function :=
  { kernel with params := kernel.params.take position ++ p :: kernel.params.drop position }

/-- The names that a kernel declares: its parameters, and every declared name. -/
def Function.declaredNames (kernel : Function) : List Name :=
  kernel.params.map (·.name) ++
    (Lexical.declarations kernel).flatMap fun d => d.declarators.map (·.name)

/-! ## The start of a kernel -/

namespace Scope

/-- Names are bound one after another. -/
theorem bindAll_append (s : Scope) (ns ms : List Name) (variant : Bool) :
    s.bindAll (ns ++ ms) variant = (s.bindAll ns variant).bindAll ms variant :=
  List.foldl_append

/-- A name that is bound after some names were is one of them, or was bound before. -/
theorem mem_names_bindAll {s : Scope} {ns : List Name} {variant : Bool} {name : Name}
    (h : name ∈ Binding.names (s.bindAll ns variant).bindings) :
    name ∈ ns ∨ name ∈ Binding.names s.bindings := by
  induction ns generalizing s with
  | nil => exact Or.inr h
  | cons n rest ih =>
      rcases ih h with hrest | hbind
      · exact Or.inl (List.mem_cons_of_mem n hrest)
      · rcases List.mem_cons.mp hbind with rfl | hs
        · exact Or.inl List.mem_cons_self
        · exact Or.inr hs

end Scope

/-- At the start the parameter is all the difference. -/
theorem paired_atStart (kernel : Function) (position : Nat) (p : Param)
    (hnew : p.name ∉ kernel.params.map (·.name)) :
    ∃ E, Paired E (Storage.atStart kernel) (Storage.atStart (kernel.withParam position p)) := by
  have hempty : Paired [] Scope.empty Scope.empty := ⟨rfl, rfl, rfl, .nil⟩
  obtain ⟨E, -, hbefore⟩ :=
    hempty.bindAll ((kernel.params.take position).map (·.name)) false
  have hfree : p.name ∉ Binding.names E.upper := by
    rw [← hbefore.upper]
    intro hname
    rcases Scope.mem_names_bindAll hname with hname | hname
    · exact hnew (List.map_subset _ (List.take_subset _ _) hname)
    · cases hname
  obtain ⟨E', -, hafter⟩ :=
    (hbefore.bindUpper false hfree).bindAll ((kernel.params.drop position).map (·.name)) false
  refine ⟨E', ?_⟩
  have hkernel : kernel.params.map (·.name) =
      (kernel.params.take position).map (·.name) ++
        (kernel.params.drop position).map (·.name) := by
    rw [← List.map_append, List.take_append_drop]
  have hwith : (kernel.withParam position p).params.map (·.name) =
      (kernel.params.take position).map (·.name) ++
        p.name :: (kernel.params.drop position).map (·.name) := by
    rw [Function.withParam, List.map_append, List.map_cons]
  rw [Storage.atStart, Storage.atStart, hkernel, hwith, Scope.bindAll_append,
    Scope.bindAll_append]
  exact hafter

/-- Each declaration of a kernel is judged with a further parameter in scope, and
at least as much changes there. -/
theorem judged_withParam (kernel : Function) (position : Nat) (p : Param)
    (hnew : p.name ∉ kernel.params.map (·.name)) :
    List.Forall₂ JudgedBelow kernel.judged (kernel.withParam position p).judged := by
  obtain ⟨E, hpaired⟩ := paired_atStart kernel position p hnew
  exact (SideBySide.stmtList kernel.body.stmts hpaired).judged

/-! ## Problems in two scopes -/

section Parts

variable {α β γ : Type} {R : α → β → Prop} {f : α → List γ} {g : β → List γ}

/-- Lists that grow element by element grow in length. -/
theorem length_flatMap_le {xs : List α} {ys : List β} (h : List.Forall₂ R xs ys)
    (hle : ∀ x y, R x y → (f x).length ≤ (g y).length) :
    (xs.flatMap f).length ≤ (ys.flatMap g).length := by
  induction h with
  | nil => exact Nat.le_refl _
  | cons hxy _ ih =>
      rw [List.flatMap_cons, List.flatMap_cons, List.length_append, List.length_append]
      exact Nat.add_le_add (hle _ _ hxy) ih

/-- Lists that are put together from parts, the first of which are no longer than
the second, are equal if and only if the parts are. -/
theorem flatMap_eq_flatMap_iff {xs : List α} {ys : List β} (h : List.Forall₂ R xs ys)
    (hle : ∀ x y, R x y → (f x).length ≤ (g y).length) :
    xs.flatMap f = ys.flatMap g ↔ List.Forall₂ (fun x y => f x = g y) xs ys := by
  induction h with
  | nil => exact ⟨fun _ => .nil, fun _ => rfl⟩
  | @cons x y xs ys hxy hrest ih =>
      rw [List.flatMap_cons, List.flatMap_cons, List.forall₂_cons]
      constructor
      · intro heq
        have htotal := congrArg List.length heq
        rw [List.length_append, List.length_append] at htotal
        have hhead := hle x y hxy
        have htail := length_flatMap_le hrest hle
        obtain ⟨hfirst, hothers⟩ := List.append_inj heq (by omega)
        exact ⟨hfirst, ih.mp hothers⟩
      · rintro ⟨hfirst, hothers⟩
        rw [hfirst, ih.mpr hothers]

variable {f' : α → List γ}

/-- The same for the parts of one list. -/
theorem length_flatMap_le_self (xs : List α) (hle : ∀ x, (f x).length ≤ (f' x).length) :
    (xs.flatMap f).length ≤ (xs.flatMap f').length := by
  have hself : List.Forall₂ Eq xs xs := List.forall₂_same.mpr fun _ _ => rfl
  exact length_flatMap_le hself fun x _ hxy => hxy ▸ hle x

/-- Where no piece can shrink, all the pieces together agree only if each of them does. -/
theorem flatMap_eq_flatMap_iff_self (xs : List α) (hle : ∀ x, (f x).length ≤ (f' x).length) :
    xs.flatMap f = xs.flatMap f' ↔ ∀ x ∈ xs, f x = f' x := by
  have hself : List.Forall₂ Eq xs xs := List.forall₂_same.mpr fun _ _ => rfl
  rw [flatMap_eq_flatMap_iff hself fun x _ hxy => hxy ▸ hle x, List.forall₂_same]

end Parts

namespace Storage

/-- The first check reads the loops around and no binding. -/
theorem roleProblem?_congr {s s' : Scope} (h : s'.frames = s.frames) (d : Declaration) :
    roleProblem? s' d = roleProblem? s d := by
  simp only [roleProblem?, Scope.hasOuter, Scope.nearestInner?, h]

variable {s s' : Scope}

/-- If at least as much changes in the second scope, then an expression has the
same first mention of a changing variable in both exactly if what it first
mentions in the second one changes in the first one as well. -/
theorem firstVariant?_eq_iff (hbelow : s.Below s') (e : Expr) :
    s.firstVariant? e = s'.firstVariant? e ↔
      (s'.firstVariant? e).all (fun o => s.isVariant o.1) = true := by
  simp only [Scope.firstVariant?, Expr.firstOccurrence?_eq_find?]
  induction e.occurrences with
  | nil => exact ⟨fun _ => rfl, fun _ => rfl⟩
  | cons o rest ih =>
      rw [List.find?_cons, List.find?_cons]
      cases hs : s.isVariant o.1 with
      | true => simp [hs, hbelow o.1 hs]
      | false =>
          cases hs' : s'.isVariant o.1 with
          | true =>
              simp only [Option.all_some, hs, Bool.false_eq_true, iff_false]
              intro heq
              have hfound := List.find?_some heq
              rw [hs] at hfound
              cases hfound
          | false => exact ih

/-- Nothing that is first mentioned in a dimension of a shared array changes in
the second scope alone. -/
def OwesNothing (s s' : Scope) (d : Declaration) : Prop :=
  d.role = .shared → ∀ array ∈ d.declarators, ∀ dim ∈ array.dims,
    (s'.firstVariant? dim).all (fun o => s.isVariant o.1) = true

instance (s s' : Scope) (d : Declaration) : Decidable (OwesNothing s s' d) :=
  inferInstanceAs (Decidable (d.role = .shared → ∀ array ∈ d.declarators, ∀ dim ∈ array.dims,
    (s'.firstVariant? dim).all (fun o => s.isVariant o.1) = true))

/-- A dimension has the same problem in both scopes, if it has one. -/
theorem boundProblem?_eq_iff (hbelow : s.Below s') (array : Name) (dim : Expr) :
    (boundProblem? s s.variantNames array dim).toList =
        (boundProblem? s' s'.variantNames array dim).toList ↔
      (s'.firstVariant? dim).all (fun o => s.isVariant o.1) = true := by
  rw [← firstVariant?_eq_iff hbelow, boundProblem?_eq_map, boundProblem?_eq_map]
  constructor
  · intro heq
    cases h : s.firstVariant? dim <;> cases h' : s'.firstVariant? dim <;>
      simp_all [Prod.ext_iff]
  · intro heq
    rw [heq]

/-- A scope that knows more reports a dimension whenever the other one does. -/
theorem length_boundProblem?_le (hbelow : s.Below s') (array : Name) (dim : Expr) :
    (boundProblem? s s.variantNames array dim).toList.length ≤
      (boundProblem? s' s'.variantNames array dim).toList.length := by
  rw [boundProblem?_eq_map, boundProblem?_eq_map]
  cases hfirst : s.firstVariant? dim with
  | none => exact Nat.zero_le _
  | some o =>
      obtain ⟨o', ho'⟩ := Option.isSome_iff_exists.mp
        (hbelow.firstVariant? (e := dim) (by rw [hfirst]; rfl))
      rw [ho']
      exact Nat.le_refl _

/-- The problems with the dimensions of an array. -/
def dimProblems (s : Scope) (array : Declarator) : List Problem :=
  array.dims.flatMap fun dim => (boundProblem? s s.variantNames array.name dim).toList

/-- The dimensions of a declaration, declarator by declarator. -/
theorem boundProblems_eq_flatMap (s : Scope) (d : Declaration) :
    boundProblems s d = d.declarators.flatMap (dimProblems s) := by
  simp only [boundProblems, List.filterMap_eq_flatMap_toList]
  rfl

/-- So it reports at least as many dimensions of an array. -/
theorem length_dimProblems_le (hbelow : s.Below s') (array : Declarator) :
    (dimProblems s array).length ≤ (dimProblems s' array).length :=
  length_flatMap_le_self array.dims (length_boundProblem?_le hbelow array.name)

/-- An array has the same problems in both scopes if no dimension owes anything to
a mark in the second one. -/
theorem dimProblems_eq_iff (hbelow : s.Below s') (array : Declarator) :
    dimProblems s array = dimProblems s' array ↔
      ∀ dim ∈ array.dims, (s'.firstVariant? dim).all (fun o => s.isVariant o.1) = true := by
  rw [dimProblems, dimProblems,
    flatMap_eq_flatMap_iff_self _ (length_boundProblem?_le hbelow array.name)]
  exact forall₂_congr fun dim _ => boundProblem?_eq_iff hbelow array.name dim

/-- And at least as many problems of a declaration. -/
theorem length_declarationProblems_le {j j' : Scope × Declaration} (h : JudgedBelow j j') :
    (declarationProblems j.1 j.2).length ≤ (declarationProblems j'.1 j'.2).length := by
  rw [h.declaration, declarationProblems, declarationProblems, roleProblem?_congr h.frames,
    List.length_append, List.length_append]
  apply Nat.add_le_add_left
  split
  · rw [boundProblems_eq_flatMap, boundProblems_eq_flatMap]
    exact length_flatMap_le_self _ (length_dimProblems_le h.below)
  · exact Nat.le_refl _

/-- A declaration has the same problems in both scopes if its bounds owe nothing to
a mark in the second one. -/
theorem declarationProblems_eq_iff {j j' : Scope × Declaration} (h : JudgedBelow j j') :
    declarationProblems j.1 j.2 = declarationProblems j'.1 j'.2 ↔
      OwesNothing j.1 j'.1 j.2 := by
  rw [h.declaration, declarationProblems, declarationProblems, roleProblem?_congr h.frames,
    List.append_right_inj, OwesNothing]
  by_cases hrole : j.2.role = .shared
  · rw [if_pos hrole, if_pos hrole, boundProblems_eq_flatMap, boundProblems_eq_flatMap,
      flatMap_eq_flatMap_iff_self _ (length_dimProblems_le h.below)]
    constructor
    · intro heq _ array harray
      exact (dimProblems_eq_iff h.below array).mp (heq array harray)
    · intro howes array harray
      exact (dimProblems_eq_iff h.below array).mpr (howes hrole array harray)
  · rw [if_neg hrole, if_neg hrole]
    exact ⟨fun _ hshared => absurd hshared hrole, fun _ => rfl⟩

end Storage

/-! ## Verdicts -/

/-- At each declaration of a kernel the bounds owe nothing to a mark that the
variables have in another version of the kernel. -/
def Function.OwesNothing (kernel other : Function) : Prop :=
  ∀ j ∈ kernel.judged.zip other.judged, Storage.OwesNothing j.1.1 j.2.1 j.1.2

instance (kernel other : Function) : Decidable (kernel.OwesNothing other) :=
  inferInstanceAs (Decidable (∀ j ∈ kernel.judged.zip other.judged,
    Storage.OwesNothing j.1.1 j.2.1 j.1.2))

/-- The rules on storage find the same with a further parameter if the bounds owe
nothing to its mark. -/
theorem storageProblems_withParam_iff (kernel : Function) (position : Nat) (p : Param)
    (hnew : p.name ∉ kernel.params.map (·.name)) :
    kernel.storageProblems = (kernel.withParam position p).storageProblems ↔
      kernel.OwesNothing (kernel.withParam position p) := by
  have hjudged := judged_withParam kernel position p hnew
  rw [Function.storageProblems, Function.storageProblems, Storage.problemsOfJudged,
    Storage.problemsOfJudged,
    flatMap_eq_flatMap_iff hjudged fun _ _ h => Storage.length_declarationProblems_le h,
    List.forall₂_iff_zip]
  have hiff : ∀ {j j' : Scope × Declaration},
      (j, j') ∈ kernel.judged.zip (kernel.withParam position p).judged →
        (Storage.declarationProblems j.1 j.2 = Storage.declarationProblems j'.1 j'.2 ↔
          Storage.OwesNothing j.1 j'.1 j.2) := fun hmem =>
    Storage.declarationProblems_eq_iff ((List.forall₂_iff_zip.mp hjudged).2 hmem)
  constructor
  · rintro ⟨_, heq⟩ ⟨j, j'⟩ hmem
    exact (hiff hmem).mp (heq hmem)
  · intro howes
    exact ⟨hjudged.length_eq, fun hmem => (hiff hmem).mpr (howes _ hmem)⟩

/-- **A further parameter and a variable from outside.**  The verdict on a kernel
lists the same problems with a further parameter as without it if and only if
what each bound of a shared array first mentions, among the variables that change
with the parameter, changes without it as well. -/
theorem problems_withParam_iff (kernel : Function) (position : Nat) (p : Param)
    (hnew : p.name ∉ kernel.params.map (·.name)) (names : Interner) (registry : Registry) :
    (kernel.verdict names registry .all).problems =
        ((kernel.withParam position p).verdict names registry .all).problems ↔
      kernel.OwesNothing (kernel.withParam position p) := by
  rw [← storageProblems_withParam_iff kernel position p hnew,
    Function.problems_verdict_all, Function.problems_verdict_all, Subject.problems,
    Subject.problems]
  constructor
  · intro heq
    exact List.append_cancel_right (List.append_cancel_left
      (List.append_cancel_left (List.append_cancel_left heq)))
  · intro heq
    rw [heq]
    rfl

/-- A variable from outside gets the number of the group, by itself or in a block,
and is then the size of a shared array. -/
def Function.outsideSample (inBlock : Bool) : Function :=
  let outside : Name := ⟨1⟩
  let group : Name := ⟨2⟩
  let item : Name := ⟨3⟩
  let array : Name := ⟨4⟩
  let place (n : Nat) : Span := ⟨n, n + 1⟩
  let loop (kind : MarkerKind) (var : Name) (body : List Stmt) (n : Nat) : Stmt :=
    let value : Expr := .ident var (place n)
    .forLoop
      ⟨some (.decl ⟨{ base := .int }, [⟨var, [], some (.int 0 (place n)), place n⟩], [], place n⟩),
        some (.binary .lt value (.int 4 (place n)) (place n)),
        some (.assign .add value (.int 1 (place n)) (place n)), [⟨kind, place n⟩], place n⟩
      (.block body (place n) (place n)) (place n)
  let assignment : Stmt :=
    .expr (.assign .assign (.ident outside (place 20)) (.ident group (place 21)) (place 20)) (place 20)
  let shared : Declaration :=
    ⟨{ base := .int }, [⟨array, [.ident outside (place 30)], none, place 30⟩],
      [⟨.shared, place 30⟩], place 30⟩
  ⟨.empty, [], { base := .void },
    ⟨[loop .outer group
        [if inBlock then .block [assignment] (place 20) (place 20) else assignment,
         .decl shared (place 30), loop .inner item [] 40] 10], place 0⟩,
    [⟨.kernel, place 0⟩], place 0⟩

/-- Without a block in between the mark is not lost, and the parameter makes no
difference. -/
theorem problems_withParam_outsideSample :
    (Function.outsideSample false).OwesNothing
        ((Function.outsideSample false).withParam 0 ⟨⟨1⟩, { base := .int }, ⟨0, 1⟩⟩) ∧
      ((Function.outsideSample false).verdict .initial .empty .all).problems =
        (((Function.outsideSample false).withParam 0 ⟨⟨1⟩, { base := .int }, ⟨0, 1⟩⟩).verdict
          .initial .empty .all).problems :=
  ⟨by decide, (problems_withParam_iff (.outsideSample false) 0 ⟨⟨1⟩, { base := .int }, ⟨0, 1⟩⟩
    (by decide) .initial .empty).mpr (by decide)⟩

/-- The kernel declares nothing of that name, and still the parameter makes a
difference: without it the mark is lost with the block, and nothing is found. -/
theorem problems_withParam_ne :
    (⟨1⟩ : Name) ∉ (Function.outsideSample true).declaredNames ∧
      ((Function.outsideSample true).verdict .initial .empty .all).problems = [] ∧
      (((Function.outsideSample true).withParam 0 ⟨⟨1⟩, { base := .int }, ⟨0, 1⟩⟩).verdict
          .initial .empty .all).problems = [.variantBound ⟨30, 31⟩ ⟨4⟩ ⟨1⟩ ⟨30, 31⟩] := by
  decide

end KernelCheck
