import KernelCheck.Command.Check
import KernelCheck.Proofs.Loading.Lockstep
import KernelCheck.Proofs.Relabelling.Verdict

/-!
# The numbering of names

The number of a name depends on the texts that were added to the table before
it.  It shows nowhere in what a check finds and tells.

1. The names in a module that is loaded with two tables are names of texts that
   both tables hold (`Module.shared_of_renumbered`): otherwise the module would
   have to have two different names at the same place.
2. So the verdicts on its kernels are renumbered alike, by the theorem on relabelled
   kernels (`Module.report_renumber`).
3. A name in words is its text (`Problem.diagnostic_renumber`).

`check_numbering` puts this together with the loading.
-/

namespace KernelCheck

open Interner

/-! ## Names in a module -/

/-- The name in an atom, if it is no place. -/
def Atom.name? : Atom → Option Name
  | .function n | .var n | .word n => some n
  | _ => none

/-- Two renumberings agree on nodes with whose names they do the same. -/
theorem Relabelling.agreesOn_renumber {σ τ : Name → Name} {as : List Atom}
    (h : ∀ a ∈ as, ∀ n, a.name? = some n → σ n = τ n) :
    (renumber σ).AgreesOn (renumber τ) as := by
  intro a ha
  cases a with
  | place s => rfl
  | wrapper s => rfl
  | function n => exact congrArg Atom.function (h _ ha n rfl)
  | var n => exact congrArg Atom.var (h _ ha n rfl)
  | word n => exact congrArg Atom.word (h _ ha n rfl)

/-- The name in a node can be told from the renumbered node. -/
theorem Relabelling.name_eq_of_renumber {σ τ : Name → Name} {a : Atom} {n : Name}
    (ha : a.name? = some n) (h : (renumber σ).atom a = (renumber τ).atom a) : σ n = τ n := by
  cases a with
  | place s => cases ha
  | wrapper s => cases ha
  | function m =>
      cases ha
      exact Atom.function.inj h
  | var m =>
      cases ha
      exact Atom.var.inj h
  | word m =>
      cases ha
      exact Atom.word.inj h

/-- The names among some atoms are names of texts that the other table holds too. -/
def AllShared (t u : Interner) (as : List Atom) : Prop :=
  ∀ a ∈ as, ∀ n, a.name? = some n → Shared t u n

/-- If every map between two tables renumbers a module in the same way, then the
names in it are those of common texts. -/
theorem Module.shared_of_renumbered {t u : Interner} {m m' : Module}
    (h : ∀ σ, Renames t u σ → m' = m.relabel (.renumber σ)) :
    ∀ f ∈ m.functions, AllShared t u f.atoms := by
  intro f hf a ha n hn
  by_contra hshared
  -- a name without a common text may as well be given any other name
  let moved : Name → Name := Function.update (translate t u) n ⟨(translate t u n).index + 1⟩
  have hmoved : Renames t u moved := by
    intro s k k' hk hk'
    have hne : k ≠ n := by
      rintro rfl
      exact hshared ⟨s, k', hk, hk'⟩
    rw [show moved k = translate t u k from Function.update_of_ne hne _ _]
    exact renames_translate t u s k k' hk hk'
  have hmodules : m.relabel (.renumber (translate t u)) = m.relabel (.renumber moved) :=
    (h _ (renames_translate t u)).symm.trans (h _ hmoved)
  have hfunctions := congrArg Module.functions hmodules
  have hsame : f.relabel (.renumber (translate t u)) = f.relabel (.renumber moved) :=
    List.map_inj_left.mp hfunctions f hf
  have hatoms := congrArg Function.atoms hsame
  rw [Function.atoms_relabel, Function.atoms_relabel] at hatoms
  have hname := Relabelling.name_eq_of_renumber hn (List.map_inj_left.mp hatoms a ha)
  rw [show moved n = _ from Function.update_self _ _ _] at hname
  have hindex := congrArg Name.index hname
  dsimp only at hindex
  omega

/-! ## Reports -/

section Renumbered

variable {t u : Interner} {r r' : Registry} {σ : Name → Name}

/-- **A kernel** with other numbers for its names has the same verdict with other numbers. -/
theorem Function.verdict_renumber {kernel : Function} (hσ : Renames t u σ)
    (hshared : AllShared t u kernel.atoms) (hr : ∀ s, r.targetsOf t s = r'.targetsOf u s)
    (extent : Extent) :
    (kernel.relabel (.renumber σ)).verdict u r' extent =
      (kernel.verdict t r extent).relabel (.renumber σ) := by
  have hinj : Set.InjOn σ {n | n ∈ kernel.varNames} := by
    intro m hm n hn heq
    have hm' := hshared (.var m) (Function.mem_varNames.mp hm) m rfl
    have hn' := hshared (.var n) (Function.mem_varNames.mp hn) n rfl
    exact hσ.injective hm' hn' heq
  have htargets : ∀ n, .word n ∈ kernel.atoms → r'.targets (σ n) = r.targets n := by
    intro n hn
    obtain ⟨s, n', hs, hs'⟩ := hshared (.word n) hn n rfl
    have hword := hr s
    rw [Registry.targetsOf, Registry.targetsOf, hs, hs'] at hword
    rw [hσ s n n' hs hs']
    exact hword.symm
  exact Function.verdict_relabel (.renumber σ) { kernel, names := t, registry := r }
    { kernel := kernel.relabel (.renumber σ), names := u, registry := r' } hinj rfl
    ⟨fun n hn => hσ.lookup (hshared (.word n) hn n rfl), htargets⟩ extent

/-- The kernels of a module stay its kernels. -/
theorem Module.kernels_relabel (m : Module) (ρ : Relabelling) :
    (m.relabel ρ).kernels = m.kernels.map (·.relabel ρ) := by
  have hkernel : ∀ f : Function, (f.relabel ρ).isKernel = f.isKernel := by
    intro f
    have hkind : ∀ marker : Marker, ((marker.relabel ρ).kind == MarkerKind.kernel) =
        (marker.kind == .kernel) := by
      rintro ⟨kind, span⟩
      cases kind <;> rfl
    simp only [Function.isKernel, Function.hasMarker, Function.relabel, List.any_map,
      Function.comp_def, hkind]
  simp only [kernels, relabel, List.filter_map, Function.comp_def, hkernel]

/-- A module with other numbers has the same report with other numbers. -/
theorem Module.report_renumber {m : Module} (hσ : Renames t u σ)
    (hshared : ∀ f ∈ m.functions, AllShared t u f.atoms)
    (hr : ∀ s, r.targetsOf t s = r'.targetsOf u s) (extent : Extent) :
    (m.relabel (.renumber σ)).report u r' extent =
      (m.report t r extent).relabel (.renumber σ) := by
  rw [report, report, Report.relabel, kernels_relabel]
  simp only [List.map_map, Report.mk.injEq]
  apply List.map_congr_left
  intro kernel hkernel
  exact kernel.verdict_renumber hσ (hshared kernel (List.mem_of_mem_filter hkernel)) hr extent

/-- The verdicts on a module have no names but those of its functions. -/
theorem Module.shared_report {m : Module} (hshared : ∀ f ∈ m.functions, AllShared t u f.atoms)
    (names : Interner) (extent : Extent) :
    ∀ v ∈ (m.report names r extent).verdicts, AllShared t u v.atoms := by
  intro v hv a ha
  obtain ⟨kernel, hkernel, rfl⟩ := List.mem_map.mp hv
  exact hshared kernel (List.mem_of_mem_filter hkernel) a
    (kernel.atoms_verdict_subset _ _ _ ha)

/-! ## Texts for names -/

/-- Every name in a report gives way to what stands for its text.  Where `spell` has
something of its own for each text, reports that are equal then have equal texts
in the same places. -/
def Report.spelled (spell : String → Name) (t : Interner) (report : Report) : Report :=
  report.relabel (.renumber fun n => spell (t.lookup n))

/-- Two renumberings, one after the other. -/
theorem Verdict.relabel_renumber (v : Verdict) (τ : Name → Name) :
    (v.relabel (.renumber σ)).relabel (.renumber τ) = v.relabel (.renumber (τ ∘ σ)) := by
  have hproblem : ∀ p : Problem, (p.relabel (.renumber σ)).relabel (.renumber τ) =
      p.relabel (.renumber (τ ∘ σ)) := by
    intro p
    cases p with
    | unknownAttribute _ kind _ | duplicateAttribute _ kind _ => cases kind <;> rfl
    | _ => rfl
  obtain ⟨kernel, span, problems⟩ := v
  simp only [relabel, List.map_map, Function.comp_def, hproblem]
  rfl

/-- A report with its names spelled out has no numbers left to differ. -/
theorem Report.spelled_renumber (hσ : Renames t u σ) (spell : String → Name) {report : Report}
    (hshared : ∀ v ∈ report.verdicts, AllShared t u v.atoms) :
    (report.relabel (.renumber σ)).spelled spell u = report.spelled spell t := by
  unfold spelled relabel
  rw [List.map_map, Report.mk.injEq]
  apply List.map_congr_left
  intro v hv
  rw [Function.comp_apply, Verdict.relabel_renumber]
  apply Verdict.relabel_congr
  apply Relabelling.agreesOn_renumber
  intro a ha n hn
  exact congrArg spell (hσ.lookup (hshared v hv a ha n hn))

/-- The word of a marker does not depend on its number. -/
theorem MarkerKind.text_renumber {kind : MarkerKind}
    (h : ∀ a ∈ kind.atoms, ∀ n, a.name? = some n → u.lookup (σ n) = t.lookup n) :
    (kind.relabel (.renumber σ)).text u = kind.text t := by
  cases kind with
  | custom n => exact h _ List.mem_cons_self n rfl
  | _ => rfl

/-- A problem in words has the texts of its names in it and not the names. -/
theorem Problem.diagnostic_renumber {p : Problem}
    (h : ∀ a ∈ p.atoms, ∀ n, a.name? = some n → u.lookup (σ n) = t.lookup n) :
    (p.relabel (.renumber σ)).diagnostic u = p.diagnostic t := by
  cases p with
  | unknownAttribute s kind target =>
      have hkind := MarkerKind.text_renumber fun a ha => h a (List.mem_cons_of_mem _ ha)
      simp only [relabel, diagnostic, hkind]
      rfl
  | duplicateAttribute s kind first =>
      have hkind := MarkerKind.text_renumber fun a ha =>
        h a (List.mem_cons_of_mem _ (List.mem_cons_of_mem _ ha))
      simp only [relabel, diagnostic, hkind]
      rfl
  | badTest s var _ | badUpdate s var _ | sharedOutsideOuter s var | exclusiveOutsideOuter s var
  | sharedInsideInner s var _ | exclusiveInsideInner s var _ =>
      have hvar : u.lookup (σ var) = t.lookup var := h (.var var) (by simp [atoms]) var rfl
      simp only [relabel, diagnostic, Relabelling.renumber, hvar]
      rfl
  | missingLoops s kernel _ =>
      have hkernel : u.lookup (σ kernel) = t.lookup kernel :=
        h (.function kernel) (by simp [atoms]) kernel rfl
      simp only [relabel, diagnostic, Relabelling.renumber, hkernel]
      rfl
  | variantBound s array var _ =>
      have harray : u.lookup (σ array) = t.lookup array :=
        h (.var array) (by simp [atoms]) array rfl
      have hvar : u.lookup (σ var) = t.lookup var := h (.var var) (by simp [atoms]) var rfl
      simp only [relabel, diagnostic, Relabelling.renumber, harray, hvar]
      rfl
  | _ => rfl

/-- A report in words does not depend on the numbers. -/
theorem Report.diagnostics_renumber (hσ : Renames t u σ) {report : Report}
    (hshared : ∀ v ∈ report.verdicts, AllShared t u v.atoms) :
    (report.relabel (.renumber σ)).diagnostics u = report.diagnostics t := by
  have hverdict : ∀ v ∈ report.verdicts,
      (v.relabel (.renumber σ)).diagnostics u = v.diagnostics t := by
    intro v hv
    have hkernel : u.lookup ((Relabelling.renumber σ).function v.kernel) = t.lookup v.kernel :=
      hσ.lookup (hshared v hv (.function v.kernel) (by simp [Verdict.atoms]) v.kernel rfl)
    unfold Verdict.diagnostics Verdict.relabel
    rw [List.map_map]
    apply List.map_congr_left
    intro p hp
    have hproblem : (p.relabel (.renumber σ)).diagnostic u = p.diagnostic t := by
      refine Problem.diagnostic_renumber fun a ha n hn => hσ.lookup ?_
      exact hshared v hv a (Problem.atoms_subset_verdict hp ha) n hn
    simp only [Function.comp_apply, hproblem, hkernel]
  have hpassed : ∀ v : Verdict, (v.relabel (.renumber σ)).passed = v.passed := by
    intro v
    simp [Verdict.passed, Verdict.relabel]
  have hrejected : (report.relabel (.renumber σ)).rejected =
      report.rejected.map (·.relabel (.renumber σ)) := by
    simp only [rejected, relabel, List.filter_map, Function.comp_def, hpassed]
  have hrest : ∀ v ∈ report.rejected, (v.relabel (.renumber σ)).diagnostics u = v.diagnostics t :=
    fun v hv => hverdict v (List.mem_of_mem_filter hv)
  calc (report.relabel (.renumber σ)).diagnostics u
      = (report.rejected.map (·.relabel (.renumber σ))).flatMap (·.diagnostics u) := by
        rw [diagnostics, hrejected]
    _ = report.rejected.flatMap fun v => (v.relabel (.renumber σ)).diagnostics u :=
        List.flatMap_map ..
    _ = report.rejected.flatMap (·.diagnostics t) := List.flatMap_congr hrest
    _ = report.diagnostics t := rfl

end Renumbered

/-- **The numbering of names shows nowhere.**  If a text is loaded with two tables,
then loading either fails with the same error, or succeeds in both cases.  Then
both tables may grow further, and two registries that say the same of every
word lead to reports that are equal once something stands for each text in
place of its names; and a check writes the same text. -/
theorem check_numbering (text origin : String) (t₁ t₂ : Interner) :
    (∃ e, (Module.parse text origin).run t₁ = .error e ∧
      (Module.parse text origin).run t₂ = .error e) ∨
    ∃ m₁ u₁ m₂ u₂, (Module.parse text origin).run t₁ = .ok (m₁, u₁) ∧
      (Module.parse text origin).run t₂ = .ok (m₂, u₂) ∧
      ∀ w₁ w₂, u₁.Within w₁ → u₂.Within w₂ →
        (∀ r₁ r₂ : Registry, (∀ s, r₁.targetsOf w₁ s = r₂.targetsOf w₂ s) →
          ∀ (extent : Extent) (spell : String → Name),
            (m₁.report w₁ r₁ extent).spelled spell w₁ =
              (m₂.report w₂ r₂ extent).spelled spell w₂) ∧
        ∀ (options : CheckOptions) (source : Option Source) (isTerminal : Bool),
          (options.check m₁ w₁ source isTerminal).output =
            (options.check m₂ w₂ source isTerminal).output := by
  have hlockstep := Module.lockstep_parse text origin t₁ t₂
  generalize (Module.parse text origin).run t₁ = x₁,
    (Module.parse text origin).run t₂ = x₂ at hlockstep
  cases hlockstep with
  | failed e => exact .inl ⟨e, rfl, rfl⟩
  | @loaded m₁ m₂ u₁ u₂ _ _ hm =>
      refine .inr ⟨m₁, u₁, m₂, u₂, rfl, rfl, fun w₁ w₂ hw₁ hw₂ => ?_⟩
      have hσ := renames_translate w₁ w₂
      have hshared : ∀ f ∈ m₁.functions, AllShared w₁ w₂ f.atoms := by
        intro f hf a ha n hn
        exact (Module.shared_of_renumbered hm f hf a ha n hn).of_within hw₁ hw₂
      have hreport : ∀ (r₁ r₂ : Registry), (∀ s, r₁.targetsOf w₁ s = r₂.targetsOf w₂ s) →
          ∀ extent, m₂.report w₂ r₂ extent =
            (m₁.report w₁ r₁ extent).relabel (.renumber (translate w₁ w₂)) := by
        intro r₁ r₂ hr extent
        rw [hm _ (hσ.of_within hw₁ hw₂)]
        exact Module.report_renumber hσ hshared hr extent
      constructor
      · intro r₁ r₂ hr extent spell
        rw [hreport r₁ r₂ hr extent]
        exact (Report.spelled_renumber hσ spell (Module.shared_report hshared w₁ extent)).symm
      · intro options source isTerminal
        have hempty : ∀ s, Registry.empty.targetsOf w₁ s = Registry.empty.targetsOf w₂ s := by
          intro s
          unfold Registry.targetsOf
          cases w₁.get? s <;> cases w₂.get? s <;> rfl
        have hdiagnostics : (m₁.report w₁ .empty options.extent).diagnostics w₁ =
            (m₂.report w₂ .empty options.extent).diagnostics w₂ := by
          rw [hreport .empty .empty hempty]
          exact (Report.diagnostics_renumber hσ
            (Module.shared_report hshared w₁ options.extent)).symm
        simp only [CheckOptions.check, hdiagnostics]

/-- A kernel with a marker that is not built in. -/
def Document.tileSample : String :=
  "\x7b\"functions\":[\x7b\"name\":\"k\",\"attrs\":[\x7b\"name\":\"kernel\"\x7d," ++
    "\x7b\"name\":\"tile\"\x7d],\"body\":\x7b\x7d\x7d]\x7d"

/-- The names of the functions in a text. -/
def Document.functionNames? (text : String) (t : Interner) : Option (List Name) :=
  ((Module.parse text "").run t).toOption.map fun r => r.1.functions.map (·.name)

/-- The texts `k` and `tile` are numbered the other way round if the table holds
`tile` before.  The marker is registered for loops. -/
theorem check_numbering_tileSample :
    let given := Interner.initial
    let other := (Interner.initial.intern "tile").2
    let made := Registry.ofTexts [("tile", .only .loop)]
    Document.functionNames? Document.tileSample given = some [⟨16⟩] ∧
      Document.functionNames? Document.tileSample other = some [⟨17⟩] ∧
      ∃ m₁ u₁ m₂ u₂, (Module.parse Document.tileSample "").run given = .ok (m₁, u₁) ∧
        (Module.parse Document.tileSample "").run other = .ok (m₂, u₂) ∧
        u₁.Within (made u₁).2 ∧ u₂.Within (made u₂).2 ∧
        (∀ s, (made u₁).1.targetsOf (made u₁).2 s = (made u₂).1.targetsOf (made u₂).2 s) ∧
        ∀ (extent : Extent) (spell : String → Name),
          (m₁.report (made u₁).2 (made u₁).1 extent).spelled spell (made u₁).2 =
            (m₂.report (made u₂).2 (made u₂).1 extent).spelled spell (made u₂).2 := by
  intro given other made
  have hgiven : Document.functionNames? Document.tileSample given = some [⟨16⟩] := by
    decide +kernel
  have hother : Document.functionNames? Document.tileSample other = some [⟨17⟩] := by
    decide +kernel
  refine ⟨hgiven, hother, ?_⟩
  rcases check_numbering Document.tileSample "" given other with
    ⟨e, he, -⟩ | ⟨m₁, u₁, m₂, u₂, h₁, h₂, hall⟩
  · rw [Document.functionNames?, he] at hgiven
    cases hgiven
  · have hw₁ := Registry.within_ofTexts [("tile", .only .loop)] u₁
    have hw₂ := Registry.within_ofTexts [("tile", .only .loop)] u₂
    have htargets : ∀ s, (made u₁).1.targetsOf (made u₁).2 s =
        (made u₂).1.targetsOf (made u₂).2 s := by
      intro s
      rw [Registry.targetsOf_ofTexts, Registry.targetsOf_ofTexts]
    refine ⟨m₁, u₁, m₂, u₂, h₁, h₂, hw₁, hw₂, htargets, ?_⟩
    exact (hall _ _ hw₁ hw₂).1 _ _ htargets

end KernelCheck
