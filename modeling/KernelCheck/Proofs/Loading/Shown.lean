import KernelCheck.Proofs.Distinct
import KernelCheck.Proofs.Loading.Numbering
import KernelCheck.Proofs.Loading.Sound
import KernelCheck.Proofs.Output

/-!
# What loads is safe to show

Nothing in a check looks whether a span ends before it starts or whether a name is in the
table.  It need not, since loading has done so.

1. A custom marker in a problem is a marker of the kernel (`Function.marker_mem_details`).
   Its word is an atom of the problem, and as an atom it could as well be the text of a
   string literal, which may be empty.
2. The labels of a problem in words stand on the places in the problem, and the words
   depend on the names in it alone (`Problem.span_labels`, `Problem.diagnostic_congr`).
   These places and names are details of the kernel.
3. A printer that stops at a label whose span ends before it starts does not stop
   (`Printer.emitAll?_eq_some`).

`load_sound` puts this together with the loading.
-/

namespace KernelCheck

/-! ## Custom markers in problems -/

/-- The marker that a problem is about. -/
def Problem.kind? : Problem → Option MarkerKind
  | .unknownAttribute _ kind _ | .duplicateAttribute _ kind _ => some kind
  | _ => none

/-- Only the rules on markers find problems with markers. -/
theorem Problem.kind?_of_code {p : Problem}
    (h : p.code ∉ [.unknownAttribute, .duplicateAttribute]) : p.kind? = none := by
  cases p with
  | unknownAttribute | duplicateAttribute => simp [code] at h
  | _ => rfl

/-- One marker more leads to problems with that marker alone. -/
theorem MarkerJudgement.mem_step {r : Registry} {target : Target} {j : MarkerJudgement} {m : Marker}
    {p : Problem} (h : p ∈ (step r target j m).problems) :
    p ∈ j.problems ∨ p.kind? = some m.kind := by
  have hpushed : ∀ q : Problem, q.kind? = some m.kind → p ∈ j.problems ++ [q] →
      p ∈ j.problems ∨ p.kind? = some m.kind := by
    intro q hq hmem
    rcases List.mem_append.mp hmem with hbefore | hnew
    · exact .inl hbefore
    · rw [List.mem_singleton.mp hnew]
      exact .inr hq
  unfold step at h
  split at h
  · exact hpushed _ rfl h
  · split at h
    · exact .inl h
    · split at h
      · exact .inl h
      · exact hpushed _ rfl h

/-- A problem with some markers is about one of them. -/
theorem kind_mem_of_judgeMarkers {r : Registry} {target : Target} {markers : List Marker}
    {p : Problem} {kind : MarkerKind} (hp : p ∈ problemsOf (judgeMarkers r target markers))
    (hkind : p.kind? = some kind) : kind ∈ markers.map (·.kind) := by
  have hfold : ∀ (ms : List Marker) (j : MarkerJudgement),
      p ∈ (ms.foldl (MarkerJudgement.step r target) j).problems →
        p ∈ j.problems ∨ kind ∈ ms.map (·.kind) := by
    intro ms
    induction ms with
    | nil => exact fun j h => .inl h
    | cons m rest ih =>
        intro j h
        rw [List.map_cons, List.mem_cons]
        rcases ih (j.step r target m) h with hstep | hrest
        · rcases MarkerJudgement.mem_step hstep with hbefore | hm
          · exact .inl hbefore
          · exact .inr (.inl (Option.some.inj (hkind.symm.trans hm)))
        · exact .inr (.inr hrest)
  rw [problemsOf_judgeMarkers] at hp
  rcases hfold markers .start hp with hstart | hmem
  · cases hstart
  · exact hmem

/-- The word of a custom marker is a detail of the marker. -/
theorem marker_mem_details_of_kind {markers : List Marker} {n : Name}
    (h : .custom n ∈ markers.map (·.kind)) : .name .marker n ∈ markers.flatMap (·.details) := by
  obtain ⟨⟨kind, span⟩, hm, hkind⟩ := List.mem_map.mp h
  subst hkind
  exact List.mem_flatMap.mpr ⟨_, hm, List.mem_cons_of_mem _ List.mem_cons_self⟩

/-- The same for the markers at one place. -/
theorem MarkerSite.marker_mem_details {r : Registry} {site : MarkerSite} {p : Problem} {n : Name}
    (hp : p ∈ site.problems r) (hkind : p.kind? = some (.custom n)) :
    .name .marker n ∈ site.details := by
  rw [problems_eq] at hp
  exact marker_mem_details_of_kind (kind_mem_of_judgeMarkers hp hkind)

/-- The problems with markers in a kernel are about its markers. -/
theorem Subject.marker_mem_details {s : Subject} {p : Problem} {n : Name}
    (hp : p ∈ s.markerProblems) (hkind : p.kind? = some (.custom n)) :
    .name .marker n ∈ s.kernel.details := by
  have hhead : s.kernel.markers.flatMap (·.details) ⊆ s.kernel.details :=
    fun _ h => List.mem_cons_of_mem _ (List.mem_cons_of_mem _ (List.mem_append_left _ h))
  have hbody : Stmt.detailsList s.kernel.body.stmts ⊆ s.kernel.details :=
    fun _ h => List.mem_cons_of_mem _ (List.mem_cons_of_mem _ (List.mem_append_right _
      (List.mem_append_right _ (List.mem_append_right _ (List.mem_cons_of_mem _ h)))))
  rcases List.mem_append.mp hp with hown | hsites
  · rw [Function.strictKernel, problemsOf_map] at hown
    exact hhead (marker_mem_details_of_kind (kind_mem_of_judgeMarkers hown hkind))
  · obtain ⟨site, hsite, hproblem⟩ := List.mem_flatMap.mp hsites
    have hmarker : .name .marker n ∈
        (Stmt.markerSitesList s.kernel.body.stmts).flatMap (·.details) :=
      List.mem_flatMap.mpr ⟨site, hsite, MarkerSite.marker_mem_details hproblem hkind⟩
    exact hbody ((Stmt.details_markerSitesList_sublist _).subset hmarker)

/-- **A custom marker in a problem is a marker of the kernel.** -/
theorem Function.marker_mem_details {kernel : Function} {names : Interner} {registry : Registry}
    {extent : Extent} {p : Problem} {n : Name}
    (hp : p ∈ (kernel.verdict names registry extent).problems)
    (hkind : p.kind? = some (.custom n)) : .name .marker n ∈ kernel.details := by
  let s : Subject := { kernel, names, registry }
  have hall : p ∈ s.problems := by
    rw [← problems_verdict_all]
    cases extent with
    | all => exact hp
    | first =>
        rw [problems_verdict_first] at hp
        exact List.mem_of_mem_take hp
  have hother : ∀ {codes spans ps}, Once codes spans ps →
      (∀ c ∈ codes, c ∉ [.unknownAttribute, .duplicateAttribute]) → p ∉ ps := by
    intro codes spans ps honce hcodes hmem
    rw [Problem.kind?_of_code (hcodes _ (honce.code p hmem))] at hkind
    cases hkind
  simp only [Subject.problems, List.mem_append] at hall
  rcases hall with hmarkers | hheaders | hnesting | hstorage | hjumps
  · exact Subject.marker_mem_details hmarkers hkind
  · exact absurd hheaders (hother s.once_headerProblems (by decide))
  · exact absurd hnesting (hother s.once_nestingProblems (by decide))
  · exact absurd hstorage (hother kernel.once_storageProblems (by decide))
  · exact absurd hjumps (hother s.once_jumpProblems (by decide))

/-! ## Places and names in a report -/

/-- Every name that a report holds. -/
def Report.names (r : Report) : List Name :=
  (r.verdicts.flatMap (·.atoms)).filterMap (·.name?)

/-- The labels of a problem in words stand on the places in the problem. -/
theorem Problem.span_labels (t : Interner) (p : Problem) :
    (p.diagnostic t).labels.map (·.span) = places p.atoms := by
  cases p with
  | unknownAttribute _ kind _ | duplicateAttribute _ kind _ => cases kind <;> rfl
  | _ => rfl

/-- A word in a problem is that of the marker that the problem is about. -/
theorem Problem.kind?_of_word {p : Problem} {n : Name} (h : .word n ∈ p.atoms) :
    p.kind? = some (.custom n) := by
  cases p with
  | unknownAttribute _ kind _ | duplicateAttribute _ kind _ =>
      cases kind <;> simp [atoms, MarkerKind.atoms] at h
      rw [h]
      rfl
  | _ => simp [atoms] at h

/-- A problem in words depends on the texts of its names alone. -/
theorem Problem.diagnostic_congr {t u : Interner} {p : Problem}
    (h : ∀ a ∈ p.atoms, ∀ n, a.name? = some n → u.lookup n = t.lookup n) :
    p.diagnostic u = p.diagnostic t := by
  have hsame : p.relabel (.renumber id) = p := by
    cases p with
    | unknownAttribute _ kind _ | duplicateAttribute _ kind _ => cases kind <;> rfl
    | _ => rfl
  have hrenumber : (p.relabel (.renumber id)).diagnostic u = p.diagnostic t :=
    Problem.diagnostic_renumber h
  rwa [hsame] at hrenumber

/-- A name in a verdict is a name in the report. -/
theorem Report.mem_names {r : Report} {v : Verdict} {a : Atom} {n : Name} (hv : v ∈ r.verdicts)
    (ha : a ∈ v.atoms) (hn : a.name? = some n) : n ∈ r.names :=
  List.mem_filterMap.mpr ⟨a, List.mem_flatMap.mpr ⟨v, hv, ha⟩, hn⟩

/-- A finding is a problem of one of the verdicts. -/
theorem Report.mem_findings {r : Report} {found : Verdict × Problem} (h : found ∈ r.findings) :
    found.1 ∈ r.verdicts ∧ found.2 ∈ found.1.problems := by
  obtain ⟨v, hv, hpair⟩ := List.mem_flatMap.mp h
  obtain ⟨p, hp, rfl⟩ := List.mem_map.mp hpair
  exact ⟨hv, hp⟩

/-- The diagnostics of a report depend on the texts of the names in it alone. -/
theorem Report.diagnostics_congr {t u : Interner} {r : Report}
    (h : ∀ n ∈ r.names, u.lookup n = t.lookup n) : r.diagnostics u = r.diagnostics t := by
  rw [diagnostics_eq_map, diagnostics_eq_map]
  apply List.map_congr_left
  intro found hfound
  obtain ⟨hv, hp⟩ := mem_findings hfound
  have hkernel : u.lookup found.1.kernel = t.lookup found.1.kernel :=
    h _ (mem_names hv (List.mem_cons_of_mem _ List.mem_cons_self) rfl)
  have hproblem : found.2.diagnostic u = found.2.diagnostic t := by
    refine Problem.diagnostic_congr fun a ha n hn => h n ?_
    exact mem_names hv (Problem.atoms_subset_verdict hp ha) hn
  rw [hkernel, hproblem]

section Kernel

variable {kernel : Function} {t : Interner}

/-- The places in a kernel with sound details are proper spans. -/
theorem Function.isProper_of_place (h : AllSound t kernel.details) {s : Span}
    (hs : .place s ∈ kernel.atoms) : s.IsProper := by
  rw [atoms_eq_map] at hs
  obtain ⟨detail, hdetail, hatom⟩ := List.mem_map.mp hs
  cases detail with
  | place s' =>
      cases hatom
      exact h _ hdetail
  | wrapper s' | literal n => cases hatom
  | name role n => cases role <;> cases hatom

/-- The name of the kernel or of a variable in it, which no string literal is. -/
theorem Function.told_of_name (h : AllSound t kernel.details) {a : Atom} {n : Name}
    (ha : a ∈ kernel.atoms) (hn : a.name? = some n) (hword : a ≠ .word n) :
    n.index < t.size ∧ t.lookup n ≠ "" := by
  rw [atoms_eq_map] at ha
  obtain ⟨detail, hdetail, rfl⟩ := List.mem_map.mp ha
  cases detail with
  | place s | wrapper s => cases hn
  | literal m =>
      cases hn
      exact absurd rfl hword
  | name role m =>
      have hm : m = n := by cases role <;> exact Option.some.inj hn
      subst hm
      exact h _ hdetail

/-- The names in the verdict on a kernel say something. -/
theorem Function.told_of_verdict (h : AllSound t kernel.details) {names : Interner}
    {registry : Registry} {extent : Extent} {a : Atom} {n : Name}
    (ha : a ∈ (kernel.verdict names registry extent).atoms) (hn : a.name? = some n) :
    n.index < t.size ∧ t.lookup n ≠ "" := by
  by_cases hword : a = .word n
  · subst hword
    obtain ⟨p, hp, hmem⟩ : ∃ p ∈ (kernel.verdict names registry extent).problems,
        .word n ∈ p.atoms := by
      simpa [Verdict.atoms] using ha
    exact h _ (Function.marker_mem_details hp (Problem.kind?_of_word hmem))
  · exact told_of_name h (kernel.atoms_verdict_subset _ _ _ ha) hn hword

end Kernel

/-! ## A printer that may stop -/

namespace Printer

/-- Steps that go through one by one go through as a whole. -/
theorem foldlM_eq_some {α : Type} {step? : Printer → α → Option Printer}
    {step : Printer → α → Printer} {xs : List α}
    (h : ∀ x ∈ xs, ∀ p, step? p x = some (step p x)) (p : Printer) :
    xs.foldlM step? p = some (xs.foldl step p) := by
  induction xs generalizing p with
  | nil => rfl
  | cons x rest ih =>
      rw [List.forall_mem_cons] at h
      rw [List.foldlM_cons, h.1, List.foldl_cons]
      exact ih h.2 (step p x)

/-- A diagnostic whose labels have proper spans is written as a whole. -/
theorem emit?_eq_some {d : Diagnostic} (h : ∀ l ∈ d.labels, l.span.IsProper) (p : Printer) :
    p.emit? d = some (p.emit d) := by
  have hlabel : ∀ source, ∀ l ∈ d.labels, ∀ p : Printer,
      (Layout.label? source l).map p.put = some (p.put (Layout.label source l)) := by
    intro source l hl p
    cases source with
    | none => rfl
    | some source =>
        have hlength : l.span.length? = some l.span.length :=
          if_neg (Nat.not_lt.mpr (h l hl).1)
        rw [Layout.label?, Layout.snippet?, hlength]
        rfl
  unfold emit?
  dsimp only
  rw [foldlM_eq_some (hlabel p.terminal.source)]
  rfl

/-- **A printer does not stop** if all labels have proper spans. -/
theorem emitAll?_eq_some {ds : List Diagnostic} (h : ∀ d ∈ ds, ∀ l ∈ d.labels, l.span.IsProper)
    (p : Printer) : p.emitAll? ds = some (p.emitAll ds) :=
  foldlM_eq_some (fun d hd => emit?_eq_some (h d hd)) p

end Printer

/-- **Whatever loads is well formed and safe to show.**  In every table with the names
known after loading, the spans of the module are proper and its names are in the table,
and all of them but string literals have a text.

For every registry and extent of the check, the labels of the report have proper spans,
so a printer that would stop at another one writes the whole report, with any source or
none.  The names in the report have texts, and its diagnostics depend on these alone. -/
theorem load_sound {text origin : String} {t u : Interner} {m : Module}
    (h : (Module.parse text origin).run t = .ok (m, u)) :
    ∀ w, u.Within w →
      (∀ f ∈ m.functions, AllSound w f.details) ∧
      ∀ (registry : Registry) (extent : Extent),
        let report := m.report w registry extent
        let ds := report.diagnostics w
        (∀ d ∈ ds, ∀ l ∈ d.labels, l.span.IsProper) ∧
        (∀ terminal : Terminal, (Printer.start terminal).emitAll? ds =
          some ((Printer.start terminal).emitAll ds)) ∧
        (∀ n ∈ report.names, n.index < w.size ∧ w.lookup n ≠ "") ∧
        ∀ w', (∀ n ∈ report.names, w'.lookup n = w.lookup n) → report.diagnostics w' = ds := by
  intro w hw
  have hsound : ∀ f ∈ m.functions, AllSound w f.details :=
    (Module.sound_parse text origin t m u h).2 w hw
  refine ⟨hsound, fun registry extent => ?_⟩
  intro report ds
  have hverdict : ∀ v ∈ report.verdicts, ∃ kernel ∈ m.functions,
      kernel.verdict w registry extent = v := by
    intro v hv
    obtain ⟨kernel, hkernel, rfl⟩ := List.mem_map.mp hv
    exact ⟨kernel, List.mem_of_mem_filter hkernel, rfl⟩
  have hlabels : ∀ d ∈ ds, ∀ l ∈ d.labels, l.span.IsProper := by
    intro d hd l hl
    simp only [ds, Report.diagnostics_eq_map] at hd
    obtain ⟨found, hfound, rfl⟩ := List.mem_map.mp hd
    obtain ⟨hv, hp⟩ := Report.mem_findings hfound
    obtain ⟨kernel, hkernel, hfrom⟩ := hverdict _ hv
    have hspan : l.span ∈ places found.2.atoms := by
      rw [← found.2.span_labels w]
      exact List.mem_map_of_mem hl
    have hplace : .place l.span ∈ found.1.atoms :=
      Problem.atoms_subset_verdict hp (mem_places.mp hspan)
    rw [← hfrom] at hplace
    exact Function.isProper_of_place (hsound kernel hkernel)
      (kernel.atoms_verdict_subset _ _ _ hplace)
  refine ⟨hlabels, fun terminal => Printer.emitAll?_eq_some hlabels _, ?_, ?_⟩
  · intro n hn
    obtain ⟨a, ha, hname⟩ := List.mem_filterMap.mp hn
    obtain ⟨v, hv, hatom⟩ := List.mem_flatMap.mp ha
    obtain ⟨kernel, hkernel, rfl⟩ := hverdict v hv
    exact Function.told_of_verdict (hsound kernel hkernel) hatom hname
  · intro w' hw'
    exact Report.diagnostics_congr hw'

/-- A kernel with a marker that is not built in, and with an empty string literal. -/
def Document.literalSample : String :=
  "\x7b\"functions\":[\x7b\"name\":\"k\",\"attrs\":[\x7b\"name\":\"kernel\"\x7d," ++
    "\x7b\"name\":\"tile\",\"span\":[8,13]\x7d],\"body\":\x7b\"stmts\":[" ++
    "\x7b\"kind\":\"expr\",\"span\":[20,23],\"expr\":" ++
    "\x7b\"kind\":\"string\",\"value\":\"\",\"span\":[20,22]\x7d\x7d]\x7d\x7d]\x7d"

/-- The details of the functions in a text. -/
def Document.details? (text : String) (t : Interner) : Option (List (List Detail)) :=
  ((Module.parse text "").run t).toOption.map fun r => r.1.functions.map (·.details)

/-- The empty text is in the table, as that of the literal, and no name in the report has
it. -/
theorem load_sound_literalSample :
    Document.details? Document.literalSample .initial =
      some [[.place ⟨0, 0⟩, .name .function ⟨16⟩, .place ⟨0, 0⟩, .place ⟨8, 13⟩,
        .name .marker ⟨17⟩, .place ⟨0, 0⟩, .place ⟨20, 23⟩, .place ⟨20, 22⟩, .literal ⟨0⟩]] ∧
      ∃ m u, (Module.parse Document.literalSample "").run .initial = .ok (m, u) ∧
        let report := m.report u .empty .all
        (∀ n ∈ report.names, u.lookup n ≠ "") ∧
        ∀ terminal : Terminal, (Printer.start terminal).emitAll? (report.diagnostics u) =
          some ((Printer.start terminal).emitAll (report.diagnostics u)) := by
  have hdetails : Document.details? Document.literalSample .initial =
      some [[.place ⟨0, 0⟩, .name .function ⟨16⟩, .place ⟨0, 0⟩, .place ⟨8, 13⟩,
        .name .marker ⟨17⟩, .place ⟨0, 0⟩, .place ⟨20, 23⟩, .place ⟨20, 22⟩, .literal ⟨0⟩]] := by
    decide +kernel
  refine ⟨hdetails, ?_⟩
  cases h : (Module.parse Document.literalSample "").run .initial with
  | error e =>
      rw [Document.details?, h] at hdetails
      cases hdetails
  | ok loaded =>
      obtain ⟨m, u⟩ := loaded
      obtain ⟨-, hreport⟩ := load_sound h u (.refl u)
      obtain ⟨-, hprinted, hnames, -⟩ := hreport .empty .all
      exact ⟨m, u, rfl, fun n hn => (hnames n hn).2, hprinted⟩

end KernelCheck
