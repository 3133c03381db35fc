import KernelCheck.Proofs.Extent
import KernelCheck.Proofs.Relabelling.Storage
import Mathlib.Data.Set.Function

/-!
# The verdict on a relabelled kernel

1. All families together find in a relabelled kernel what they find in the
   kernel, if variables with different names keep different names
   (`Subject.problems_relabel`).
2. A relabelling that leaves the atoms of a kernel alone and moves all others
   leaves the kernel alone, and so its verdict.  Hence the verdict has no atoms
   but those of the kernel (`atoms_verdict_subset`).
3. Names that are not those of a variable of the kernel may be given new names
   that differ from all others, so it is enough that the variables of the kernel
   stay apart (`Function.verdict_relabel`).

`verdict_equivariant` says this for one table and one registry.
-/

namespace KernelCheck

/-- All families, one after the other. -/
theorem Subject.problems_relabel {ρ : Relabelling} {s s' : Subject}
    (hρ : Function.Injective ρ.var) (hkernel : s'.kernel = s.kernel.relabel ρ)
    (h : ρ.Keeps s s' s.kernel.atoms) :
    s'.problems = s.problems.map (·.relabel ρ) := by
  have hstorage : s'.kernel.storageProblems = s.kernel.storageProblems.map (·.relabel ρ) := by
    rw [hkernel, Function.storageProblems_relabel hρ]
  rw [problems, problems, markerProblems_relabel hkernel h, headerProblems_relabel hρ hkernel h,
    nestingProblems_relabel hkernel, hstorage, jumpProblems_relabel hkernel]
  simp only [List.map_append]

/-- **A relabelled kernel** has the relabelled verdict, if no two variables become one anywhere. -/
theorem Function.verdict_relabel_of_injective (ρ : Relabelling) (s s' : Subject)
    (hρ : Function.Injective ρ.var) (hkernel : s'.kernel = s.kernel.relabel ρ)
    (h : ρ.Keeps s s' s.kernel.atoms) (extent : Extent) :
    s'.kernel.verdict s'.names s'.registry extent =
      (s.kernel.verdict s.names s.registry extent).relabel ρ := by
  have hall : (s'.kernel.verdict s'.names s'.registry .all).problems =
      (s.kernel.verdict s.names s.registry .all).problems.map (·.relabel ρ) := by
    rw [problems_verdict_all, problems_verdict_all]
    exact Subject.problems_relabel hρ hkernel h
  have hproblems : (s'.kernel.verdict s'.names s'.registry extent).problems =
      (s.kernel.verdict s.names s.registry extent).problems.map (·.relabel ρ) := by
    cases extent with
    | all => exact hall
    | first => rw [problems_verdict_first, problems_verdict_first, hall, List.map_take]
  have hname : s'.kernel.name = ρ.function s.kernel.name := by
    rw [hkernel]
    rfl
  have hspan : s'.kernel.span = ρ.place s.kernel.span := by
    rw [hkernel]
    rfl
  calc s'.kernel.verdict s'.names s'.registry extent
      = ⟨s'.kernel.name, s'.kernel.span,
          (s'.kernel.verdict s'.names s'.registry extent).problems⟩ := rfl
    _ = ⟨ρ.function s.kernel.name, ρ.place s.kernel.span,
          (s.kernel.verdict s.names s.registry extent).problems.map (·.relabel ρ)⟩ := by
        rw [hname, hspan, hproblems]
    _ = (s.kernel.verdict s.names s.registry extent).relabel ρ := rfl

/-! ## Names that are left apart -/

/-- No less than the number of any changed name. -/
def Name.ceiling (r : Name → Name) : List Name → Nat
  | [] => 0
  | n :: rest => (r n).index + ceiling r rest

/-- The names are changed that are listed; all others become new names, which
differ from each other and from the changed ones. -/
def Name.extend (r : Name → Name) (listed : List Name) (n : Name) : Name :=
  if n ∈ listed then r n else ⟨n.index + (ceiling r listed + 1)⟩

namespace Name

variable {r : Name → Name} {listed : List Name}

/-- No listed name is moved above the ceiling. -/
theorem index_le_ceiling {n : Name} (h : n ∈ listed) : (r n).index ≤ ceiling r listed := by
  induction listed with
  | nil => cases h
  | cons m rest ih =>
      rw [ceiling]
      rcases List.mem_cons.mp h with rfl | hrest
      · omega
      · have hbelow := ih hrest
        omega

/-- A listed name is renamed as before. -/
theorem extend_of_mem {n : Name} (h : n ∈ listed) : extend r listed n = r n := if_pos h

/-- All other names are moved above the ceiling. -/
theorem extend_of_notMem {n : Name} (h : n ∉ listed) :
    extend r listed n = ⟨n.index + (ceiling r listed + 1)⟩ := if_neg h

/-- A renaming that tells the listed names apart is extended to one that tells all names apart. -/
theorem extend_injective (hr : Set.InjOn r {n | n ∈ listed}) :
    Function.Injective (extend r listed) := by
  intro m n heq
  by_cases hm : m ∈ listed <;> by_cases hn : n ∈ listed
  · rw [extend_of_mem hm, extend_of_mem hn] at heq
    exact hr hm hn heq
  · rw [extend_of_mem hm, extend_of_notMem hn] at heq
    have hindex : (r m).index = n.index + (ceiling r listed + 1) := congrArg Name.index heq
    have hbelow := index_le_ceiling (r := r) hm
    omega
  · rw [extend_of_notMem hm, extend_of_mem hn] at heq
    have hindex : m.index + (ceiling r listed + 1) = (r n).index := congrArg Name.index heq
    have hbelow := index_le_ceiling (r := r) hn
    omega
  · rw [extend_of_notMem hm, extend_of_notMem hn] at heq
    have hindex : m.index + (ceiling r listed + 1) = n.index + (ceiling r listed + 1) :=
      congrArg Name.index heq
    have hmn : m.index = n.index := by omega
    cases m
    cases n
    exact congrArg Name.mk hmn

end Name

/-- The name of a variable. -/
def Atom.var? : Atom → Option Name
  | .var n => some n
  | _ => none

/-- The names of the parameters, the declared variables and the mentioned ones. -/
def Function.varNames (f : Function) : List Name := f.atoms.filterMap (·.var?)

/-- The variable names of a function are those in its atoms. -/
theorem Function.mem_varNames {f : Function} {n : Name} :
    n ∈ f.varNames ↔ .var n ∈ f.atoms := by
  rw [varNames, List.mem_filterMap]
  constructor
  · rintro ⟨a, ha, hvar⟩
    cases a <;> cases hvar
    exact ha
  · intro h
    exact ⟨.var n, h, rfl⟩

/-! ## Atoms of the verdict -/

/-- Leaves the atoms of a function alone and moves all others. -/
def Relabelling.sparing (f : Function) : Relabelling where
  place s := if .place s ∈ f.atoms then s else ⟨s.start + 1, s.stop⟩
  wrapper := id
  var := Name.extend id f.varNames
  function n := if .function n ∈ f.atoms then n else ⟨n.index + 1⟩
  word n := if .word n ∈ f.atoms then n else ⟨n.index + 1⟩

namespace Relabelling

/-- The renaming that spares a function does nothing to its atoms. -/
theorem sparing_agreesOn (f : Function) : (sparing f).AgreesOn .id f.atoms := by
  intro a ha
  cases a with
  | place s => exact congrArg Atom.place (if_pos ha)
  | wrapper s => rfl
  | function n => exact congrArg Atom.function (if_pos ha)
  | var n => exact congrArg Atom.var (Name.extend_of_mem (Function.mem_varNames.mpr ha))
  | word n => exact congrArg Atom.word (if_pos ha)

/-- What is left alone is an atom of the function, or the place of a statement. -/
theorem mem_atoms_of_sparing {f : Function} {a : Atom} (h : (sparing f).atom a = a)
    (hwrapper : ∀ s, a ≠ .wrapper s) : a ∈ f.atoms := by
  by_contra hmem
  cases a with
  | place s =>
      have hspan := congrArg Span.start (Atom.place.inj h)
      simp [sparing, hmem] at hspan
  | wrapper s => exact hwrapper s rfl
  | function n =>
      have hindex := congrArg Name.index (Atom.function.inj h)
      simp [sparing, hmem] at hindex
  | var n =>
      have hindex := congrArg Name.index (Atom.var.inj h)
      simp [sparing, Name.extend_of_notMem fun hn => hmem (Function.mem_varNames.mp hn)] at hindex
  | word n =>
      have hindex := congrArg Name.index (Atom.word.inj h)
      simp [sparing, hmem] at hindex

end Relabelling

/-- A problem holds no span of a wrapper. -/
theorem Problem.ne_wrapper_of_mem_atoms {p : Problem} {a : Atom} (h : a ∈ p.atoms) (s : Span) :
    a ≠ .wrapper s := by
  rintro rfl
  cases p with
  | unknownAttribute _ kind _ | duplicateAttribute _ kind _ =>
      cases kind <;> simp [atoms, MarkerKind.atoms] at h
  | _ => simp [atoms] at h

/-- Neither does a verdict. -/
theorem Verdict.ne_wrapper_of_mem_atoms {v : Verdict} {a : Atom} (h : a ∈ v.atoms) (s : Span) :
    a ≠ .wrapper s := by
  simp only [atoms, List.mem_cons, List.mem_flatMap] at h
  rcases h with rfl | rfl | ⟨p, -, hp⟩
  · exact Atom.noConfusion
  · exact Atom.noConfusion
  · exact p.ne_wrapper_of_mem_atoms hp s

/-- **The verdict has no atoms of its own.**  All places and names in the verdict on
a kernel are places and names of the kernel. -/
theorem Function.atoms_verdict_subset (kernel : Function) (names : Interner)
    (registry : Registry) (extent : Extent) :
    (kernel.verdict names registry extent).atoms ⊆ kernel.atoms := by
  let s (kernel : Function) : Subject := { kernel, names, registry }
  have hagree := Relabelling.sparing_agreesOn kernel
  have hsame : kernel.relabel (.sparing kernel) = kernel.relabel .id := relabel_congr hagree
  have hwords : ∀ n, .word n ∈ kernel.atoms → (Relabelling.sparing kernel).word n = n :=
    fun n hn => Atom.word.inj (hagree (.word n) hn)
  have hspared := verdict_relabel_of_injective (.sparing kernel) (s kernel)
    (s (kernel.relabel (.sparing kernel))) (Name.extend_injective (Set.injOn_id _)) rfl
    ⟨fun n hn => congrArg names.lookup (hwords n hn),
      fun n hn => congrArg registry.targets (hwords n hn)⟩ extent
  have hkept := verdict_relabel_of_injective .id (s kernel) (s (kernel.relabel .id))
    Function.injective_id rfl
    ⟨fun _ _ => rfl, fun _ _ => rfl⟩ extent
  intro a ha
  -- the kernel stays as it is, so its verdict does, and with it every atom of the verdict
  have hverdicts : (kernel.verdict names registry extent).relabel (.sparing kernel) =
      (kernel.verdict names registry extent).relabel .id := by
    rw [← hspared, ← hkept]
    exact congrArg (·.verdict names registry extent) hsame
  have hatoms := congrArg Verdict.atoms hverdicts
  rw [Verdict.atoms_relabel, Verdict.atoms_relabel, List.map_inj_left] at hatoms
  have hfixed := hatoms a ha
  rw [Relabelling.atom_id] at hfixed
  exact Relabelling.mem_atoms_of_sparing hfixed (Verdict.ne_wrapper_of_mem_atoms ha)

/-! ## Relabelled kernels -/

/-- **Relabelling a kernel relabels its verdict**, if its variables stay apart and
its words mean the same. -/
theorem Function.verdict_relabel (ρ : Relabelling) (s s' : Subject)
    (hρ : Set.InjOn ρ.var {n | n ∈ s.kernel.varNames})
    (hkernel : s'.kernel = s.kernel.relabel ρ) (h : ρ.Keeps s s' s.kernel.atoms)
    (extent : Extent) :
    s'.kernel.verdict s'.names s'.registry extent =
      (s.kernel.verdict s.names s.registry extent).relabel ρ := by
  -- `ρ` may confuse names that are not in the kernel, and `σ` does not
  let σ : Relabelling := { ρ with var := Name.extend ρ.var s.kernel.varNames }
  have hagree : ρ.AgreesOn σ s.kernel.atoms := by
    intro a ha
    cases a with
    | var n =>
        have hn : σ.var n = ρ.var n := Name.extend_of_mem (mem_varNames.mpr ha)
        exact congrArg Atom.var hn.symm
    | _ => rfl
  have hσ := verdict_relabel_of_injective σ s s' (Name.extend_injective hρ)
    (hkernel.trans (relabel_congr hagree)) ⟨h.lookup, h.targets⟩ extent
  rw [hσ]
  symm
  apply Verdict.relabel_congr
  intro a ha
  exact hagree a (s.kernel.atoms_verdict_subset _ _ _ ha)

/-- **No verdict depends on places or on which names were chosen.**  If the places
in a kernel are changed in any way, and the names of its variables so that
different variables keep different names, then the verdict changes alike: it has
the same problems in the same order, with the changed places and names.  The
kernel may even get the name of a variable. -/
theorem verdict_equivariant (kernel : Function) (names : Interner) (registry : Registry)
    (extent : Extent) (place : Span → Span) (r : Name → Name)
    (hr : ∀ m ∈ kernel.varNames, ∀ n ∈ kernel.varNames, r m = r n → m = n) :
    (kernel.relabel ⟨place, place, r, r, id⟩).verdict names registry extent =
      (kernel.verdict names registry extent).relabel ⟨place, place, r, r, id⟩ := by
  have hinj : Set.InjOn r {n | n ∈ kernel.varNames} := fun m hm n hn => hr m hm n hn
  exact Function.verdict_relabel ⟨place, place, r, r, id⟩ { kernel, names, registry }
    { kernel := kernel.relabel ⟨place, place, r, r, id⟩, names, registry } hinj rfl
    ⟨fun _ _ => rfl, fun _ _ => rfl⟩ extent

/-- A kernel with a shared array that is sized by the number of the group, and with
a loop over items that tests the wrong variable and steps by its own. -/
def Function.mixedSample : Function :=
  let place (n : Nat) : Span := ⟨n, n + 1⟩
  let mention (n : Nat) (var : Name) : Expr := .ident var (place n)
  let header (kind : MarkerKind) (n : Nat) (var tested stepped : Name) : LoopHeader :=
    ⟨some (.decl ⟨{ base := .int }, [⟨var, [], some (.int 0 (place n)), place (n + 1)⟩], [],
        place (n + 2)⟩),
      some (.binary .lt (mention (n + 3) tested) (.int 4 (place (n + 4))) (place (n + 5))),
      some (.assign .add (mention (n + 6) var) (mention (n + 7) stepped) (place (n + 8))),
      [⟨kind, place (n + 9)⟩], place (n + 10)⟩
  let array : Stmt :=
    .decl ⟨{ base := .float }, [⟨⟨3⟩, [mention 50 ⟨2⟩], none, place 51⟩], [⟨.shared, place 52⟩],
      place 53⟩ (place 54)
  let items : Stmt := .forLoop (header .inner 20 ⟨4⟩ ⟨2⟩ ⟨4⟩) (.empty (place 40)) (place 41)
  let groups : Stmt :=
    .forLoop (header .outer 0 ⟨2⟩ ⟨2⟩ ⟨5⟩) (.block [array, items] (place 55) (place 56)) (place 57)
  ⟨⟨1⟩, [⟨⟨5⟩, { base := .int }, place 58⟩], { base := .void }, ⟨[groups], place 59⟩,
    [⟨.kernel, place 60⟩], place 61⟩

/-- All places fall together, two variables change names, and a third one gets the
name of the kernel. -/
theorem verdict_equivariant_mixedSample :
    let place : Span → Span := fun _ => ⟨0, 0⟩
    let r : Name → Name := fun n =>
      if n = ⟨2⟩ then ⟨3⟩ else if n = ⟨3⟩ then ⟨2⟩ else if n = ⟨4⟩ then ⟨1⟩ else n
    let kernel := Function.mixedSample
    (∀ m ∈ kernel.varNames, ∀ n ∈ kernel.varNames, r m = r n → m = n) ∧
      (kernel.verdict .initial .empty .all).problems =
        [.badTest ⟨23, 24⟩ ⟨4⟩ .wrongOperand, .badUpdate ⟨28, 29⟩ ⟨4⟩ .stepReferencesVar,
          .variantBound ⟨50, 51⟩ ⟨3⟩ ⟨2⟩ ⟨50, 51⟩] ∧
      (kernel.relabel ⟨place, place, r, r, id⟩).verdict .initial .empty .all =
        ⟨⟨1⟩, ⟨0, 0⟩,
          [.badTest ⟨0, 0⟩ ⟨1⟩ .wrongOperand, .badUpdate ⟨0, 0⟩ ⟨1⟩ .stepReferencesVar,
            .variantBound ⟨0, 0⟩ ⟨2⟩ ⟨3⟩ ⟨0, 0⟩]⟩ := by
  intro place r kernel
  have hr : ∀ m ∈ kernel.varNames, ∀ n ∈ kernel.varNames, r m = r n → m = n := by decide
  refine ⟨hr, by decide, ?_⟩
  rw [verdict_equivariant kernel .initial .empty .all place r hr]
  decide

end KernelCheck
