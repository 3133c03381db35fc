import KernelCheck.Proofs.Distinct

/-!
# Registered markers

A registry only says where custom markers are accepted.  A marker that it accepts is
looked at by nobody, so registering one more can only take problems away.

1. One marker more is judged with both registries, and the judgements keep apart by
   the problems that the larger registry lifts (`MarkerJudgement.step_lifted`).
2. From one list of markers this goes on to all nodes of a kernel
   (`Subject.markerProblems_lifted`).  The other families of rules do not look at the
   registry, and none of their problems is one of an unknown marker.
3. What is accepted after some calls of `Registry.register` is what one of them has
   registered (`Registry.contains_targets_registerAll`).
-/

namespace KernelCheck

/-! ## Registries -/

namespace Registry

/-- Whatever the one registry accepts, the other accepts as well. -/
def IsWithin (r r' : Registry) : Prop :=
  ∀ name target, (r.targets name).contains target = true →
    (r'.targets name).contains target = true

/-- Names and the kinds of nodes that they are registered for, one call after the other. -/
def registerAll (r : Registry) (calls : List (Name × Targets)) : Registry :=
  calls.foldl (fun r call => r.register call.1 call.2) r

/-- A registry that knows what some calls have registered. -/
def ofCalls (calls : List (Name × Targets)) : Registry := empty.registerAll calls

variable {r r' : Registry}

/-- A marker that is accepted stays accepted with more registrations. -/
theorem IsWithin.accepts (h : r.IsWithin r') {kind : MarkerKind} {target : Target}
    (haccepts : r.accepts kind target = true) : r'.accepts kind target = true := by
  cases kind with
  | custom name => exact h name target haccepts
  | _ => exact haccepts

/-- Where a built-in marker is accepted is fixed. -/
theorem accepts_of_isBuiltin {kind : MarkerKind} (h : kind.isBuiltin = true) (r r' : Registry)
    (target : Target) : r.accepts kind target = r'.accepts kind target := by
  cases kind with
  | custom name => cases h
  | _ => rfl

/-- A registration adds its targets to those of its name, and to no other. -/
theorem contains_targets_register (r : Registry) (name other : Name) (set : Targets)
    (target : Target) :
    ((r.register name set).targets other).contains target = true ↔
      (r.targets other).contains target = true ∨ name = other ∧ set.contains target = true := by
  by_cases hname : name = other
  · subst hname
    rw [targets_register_self, Targets.contains_union, Bool.or_eq_true]
    simp
  · rw [targets_register_of_ne r set (Ne.symm hname)]
    simp [hname]

/-- **Calls add up**: a name is accepted where it was before and where some call has
registered it. -/
theorem contains_targets_registerAll (calls : List (Name × Targets)) (r : Registry) (name : Name)
    (target : Target) :
    ((r.registerAll calls).targets name).contains target = true ↔
      (r.targets name).contains target = true ∨
        ∃ call ∈ calls, call.1 = name ∧ call.2.contains target = true := by
  induction calls generalizing r with
  | nil => simp [registerAll]
  | cons call rest ih =>
      have hrest := ih (r.register call.1 call.2)
      rw [contains_targets_register] at hrest
      rw [registerAll, List.foldl_cons, ← registerAll, hrest, List.exists_mem_cons_iff, or_assoc]

/-- The targets of a name after some calls are those of the calls with this name. -/
theorem contains_targets_ofCalls (calls : List (Name × Targets)) (name : Name) (target : Target) :
    ((ofCalls calls).targets name).contains target = true ↔
      ∃ call ∈ calls, call.1 = name ∧ call.2.contains target = true := by
  have hempty : (empty.targets name).contains target = false := Targets.contains_empty target
  rw [ofCalls, contains_targets_registerAll, hempty]
  simp

/-- Registries that are within each other accept the same. -/
theorem IsWithin.accepts_eq (h : r.IsWithin r') (h' : r'.IsWithin r) (kind : MarkerKind)
    (target : Target) : r.accepts kind target = r'.accepts kind target := by
  rw [Bool.eq_iff_iff]
  exact ⟨h.accepts, h'.accepts⟩

end Registry

/-! ## Problems that are lifted -/

/-- The problem is that a custom marker is unknown at its place, and the registry
accepts it there. -/
def Problem.isLiftedBy (r : Registry) : Problem → Bool
  | .unknownAttribute _ (.custom name) target => r.accepts (.custom name) target
  | _ => false

/-- The problems that are left when those are taken out that a registry lifts. -/
def unlifted (r : Registry) (ps : List Problem) : List Problem := ps.filter (!·.isLiftedBy r)

section Unlifted

variable {r r' : Registry}

/-- Registrations lift no problem but unknown markers. -/
theorem Problem.isLiftedBy_of_code {p : Problem} (h : p.code ≠ .unknownAttribute) :
    p.isLiftedBy r = false := by
  cases p with
  | unknownAttribute => exact absurd rfl h
  | _ => rfl

/-- An unknown marker is lifted if it is custom and registered for its target. -/
theorem Problem.isLiftedBy_unknownAttribute (span : Span) (kind : MarkerKind) (target : Target) :
    (unknownAttribute span kind target).isLiftedBy r =
      (!kind.isBuiltin && r.accepts kind target) := by
  cases kind <;> rfl

/-- Problems are lifted one list after the other. -/
theorem unlifted_append (ps qs : List Problem) :
    unlifted r (ps ++ qs) = unlifted r ps ++ unlifted r qs :=
  List.filter_append ..

/-- Problems are lifted part by part. -/
theorem unlifted_flatMap {α : Type} (xs : List α) (problems : α → List Problem) :
    unlifted r (xs.flatMap problems) = xs.flatMap fun x => unlifted r (problems x) :=
  List.filter_flatMap ..

/-- Problems of other kinds are never lifted. -/
theorem unlifted_eq_self {codes : List Code} {spans : List Span} {ps : List Problem}
    (h : Once codes spans ps) (hcodes : .unknownAttribute ∉ codes) : unlifted r ps = ps := by
  apply List.filter_eq_self.mpr
  intro p hp
  have hcode : p.code ≠ .unknownAttribute := fun heq => hcodes (heq ▸ h.code p hp)
  rw [Problem.isLiftedBy_of_code hcode]
  rfl

/-! ## Markers -/

/-- The judgement without the problems that a registry lifts. -/
def MarkerJudgement.lifted (r : Registry) (j : MarkerJudgement) : MarkerJudgement :=
  { j with problems := unlifted r j.problems }

/-- **One marker more.**  With the larger registry the judgement goes on without the
problems that this registry lifts. -/
theorem MarkerJudgement.step_lifted (h : r.IsWithin r') (target : Target) (j : MarkerJudgement)
    (m : Marker) : step r' target (j.lifted r') m = (step r target j m).lifted r' := by
  obtain ⟨kind, span⟩ := m
  obtain ⟨first, problems⟩ := j
  by_cases hr : r.accepts kind target = true
  case pos =>
    -- both accept it: a duplicate is no problem that a registry could lift
    have hr' := h.accepts hr
    cases hbuiltin : kind.isBuiltin with
    | false => simp [step, lifted, hr, hr', hbuiltin]
    | true =>
        cases first with
        | none => simp [step, lifted, hr, hr', hbuiltin]
        | some first =>
            simp [step, lifted, hr, hr', hbuiltin, unlifted, Problem.isLiftedBy]
  case neg =>
    by_cases hr' : r'.accepts kind target = true
    · -- only a custom marker can be accepted by one of the two, and it counts for nothing
      have hcustom : kind.isBuiltin = false := by
        by_contra hbuiltin
        have hsame := Registry.accepts_of_isBuiltin (by simpa using hbuiltin) r r' target
        exact hr (hsame.trans hr')
      simp [step, lifted, hr, hr', hcustom, unlifted, Problem.isLiftedBy_unknownAttribute]
    · simp [step, lifted, hr, hr', unlifted, Problem.isLiftedBy_unknownAttribute]

/-- More registrations lift problems with markers, and change nothing else. -/
theorem problemsOf_judgeMarkers_lifted (h : r.IsWithin r') (target : Target)
    (markers : List Marker) :
    problemsOf (judgeMarkers r' target markers) =
      unlifted r' (problemsOf (judgeMarkers r target markers)) := by
  have hfold : ∀ (ms : List Marker) (j : MarkerJudgement),
      ms.foldl (MarkerJudgement.step r' target) (j.lifted r') =
        (ms.foldl (MarkerJudgement.step r target) j).lifted r' := by
    intro ms
    induction ms with
    | nil => intro j; rfl
    | cons m rest ih =>
        intro j
        rw [List.foldl_cons, List.foldl_cons, MarkerJudgement.step_lifted h]
        exact ih _
  rw [problemsOf_judgeMarkers, problemsOf_judgeMarkers]
  exact congrArg (·.problems) (hfold markers .start)

/-- The same for the markers at one place. -/
theorem MarkerSite.problems_lifted (h : r.IsWithin r') (site : MarkerSite) :
    site.problems r' = unlifted r' (site.problems r) := by
  rw [problems_eq, problems_eq]
  exact problemsOf_judgeMarkers_lifted h site.target site.markers

/-- The markers of a kernel and of everything in it. -/
theorem Subject.markerProblems_lifted (h : r.IsWithin r') (kernel : Function) (names : Interner) :
    markerProblems { kernel, names, registry := r' } =
      unlifted r' (markerProblems { kernel, names, registry := r }) := by
  have hown : problemsOf (kernel.strictKernel r') =
      unlifted r' (problemsOf (kernel.strictKernel r)) := by
    rw [Function.strictKernel, Function.strictKernel, problemsOf_map, problemsOf_map]
    exact problemsOf_judgeMarkers_lifted h .function kernel.markers
  have hsites : (Stmt.markerSitesList kernel.body.stmts).flatMap (·.problems r') =
      unlifted r' ((Stmt.markerSitesList kernel.body.stmts).flatMap (·.problems r)) := by
    rw [unlifted_flatMap]
    exact List.flatMap_congr fun site _ => site.problems_lifted h
  rw [markerProblems, markerProblems, unlifted_append, ← hown, ← hsites]

/-! ## Kernels -/

/-- The same for a whole kernel and all families. -/
theorem Function.problems_lifted (h : r.IsWithin r') (kernel : Function) (names : Interner) :
    (kernel.verdict names r' .all).problems =
      unlifted r' (kernel.verdict names r .all).problems := by
  let s : Subject := { kernel, names, registry := r }
  have hheaders : unlifted r' s.headerProblems = s.headerProblems :=
    unlifted_eq_self s.once_headerProblems (by decide)
  have hnesting : unlifted r' s.nestingProblems = s.nestingProblems :=
    unlifted_eq_self s.once_nestingProblems (by decide)
  have hstorage : unlifted r' kernel.storageProblems = kernel.storageProblems :=
    unlifted_eq_self kernel.once_storageProblems (by decide)
  have hjumps : unlifted r' s.jumpProblems = s.jumpProblems :=
    unlifted_eq_self s.once_jumpProblems (by decide)
  rw [problems_verdict_all, problems_verdict_all, Subject.problems, Subject.problems,
    Subject.markerProblems_lifted h]
  simp only [unlifted_append, s, hheaders, hnesting, hstorage, hjumps]
  rfl

/-- Registries that accept the same lead to the same verdicts. -/
theorem Function.verdict_eq_of_isWithin (h : r.IsWithin r') (h' : r'.IsWithin r)
    (kernel : Function) (names : Interner) (extent : Extent) :
    kernel.verdict names r extent = kernel.verdict names r' extent := by
  have hstep : ∀ target, MarkerJudgement.step r target = MarkerJudgement.step r' target := by
    intro target
    funext j m
    unfold MarkerJudgement.step
    rw [h.accepts_eq h' m.kind target]
  have hjudge : judgeMarkers r = judgeMarkers r' := by
    funext target markers
    unfold judgeMarkers
    rw [hstep target]
  have hsite : MarkerSite.problems r = MarkerSite.problems r' := by
    funext site
    rw [site.problems_eq, site.problems_eq, hjudge]
  have hall : (kernel.verdict names r .all).problems = (kernel.verdict names r' .all).problems := by
    rw [problems_verdict_all, problems_verdict_all, Subject.problems, Subject.problems,
      Subject.markerProblems, Subject.markerProblems, Function.strictKernel,
      Function.strictKernel, hjudge, hsite]
    rfl
  have hproblems : (kernel.verdict names r extent).problems =
      (kernel.verdict names r' extent).problems := by
    cases extent with
    | all => exact hall
    | first => rw [problems_verdict_first, problems_verdict_first, hall]
  calc kernel.verdict names r extent
      = ⟨kernel.name, kernel.span, (kernel.verdict names r extent).problems⟩ := rfl
    _ = ⟨kernel.name, kernel.span, (kernel.verdict names r' extent).problems⟩ := by rw [hproblems]
    _ = kernel.verdict names r' extent := rfl

end Unlifted

/-- **Registering markers only takes problems away.**  If a registry accepts whatever
another one accepts, then the problems of a kernel under it are those under the other
one, in the same order, without those of a custom marker that it accepts where the
marker stands.  A registry accepts a custom marker where one of the calls that made it
has registered its name, and a built-in marker as if nothing were registered; so the
order of the calls and their repetition do not matter to any verdict. -/
theorem registration_lifts :
    (∀ r r' : Registry, r.IsWithin r' → ∀ (kernel : Function) (names : Interner),
      (kernel.verdict names r' .all).problems =
        (kernel.verdict names r .all).problems.filter fun p => !p.isLiftedBy r') ∧
    (∀ (calls : List (Name × Targets)) (target : Target),
      (∀ name, (Registry.ofCalls calls).accepts (.custom name) target = true ↔
        ∃ call ∈ calls, call.1 = name ∧ call.2.contains target = true) ∧
      ∀ kind : MarkerKind, kind.isBuiltin = true →
        (Registry.ofCalls calls).accepts kind target = Registry.empty.accepts kind target) ∧
    ∀ calls calls' : List (Name × Targets), (∀ call, call ∈ calls ↔ call ∈ calls') →
      ∀ (kernel : Function) (names : Interner) (extent : Extent),
        kernel.verdict names (.ofCalls calls) extent =
          kernel.verdict names (.ofCalls calls') extent := by
  refine ⟨fun r r' h => Function.problems_lifted h, ?_, ?_⟩
  · intro calls target
    constructor
    · intro name
      exact Registry.contains_targets_ofCalls calls name target
    · intro kind hkind
      exact Registry.accepts_of_isBuiltin hkind _ _ target
  · intro calls calls' hcalls
    have hwithin : ∀ {cs cs' : List (Name × Targets)}, (∀ call ∈ cs, call ∈ cs') →
        (Registry.ofCalls cs).IsWithin (.ofCalls cs') := by
      intro cs cs' hsub name target h
      rw [Registry.contains_targets_ofCalls] at h ⊢
      obtain ⟨call, hmem, hcall⟩ := h
      exact ⟨call, hsub call hmem, hcall⟩
    exact Function.verdict_eq_of_isWithin (hwithin fun call => (hcalls call).mp)
      (hwithin fun call => (hcalls call).mpr)

/-- A kernel whose markers are `@kernel @tile @outer`, with a loop marked
`@tile @outer @tile @inner` around a declaration marked `@tile @shared @pad`.  The words
`tile` and `pad` have the names 16 and 17. -/
def Function.tiledSample : Function :=
  let place (n : Nat) : Span := ⟨n, n + 1⟩
  let marker (kind : MarkerKind) (n : Nat) : Marker := ⟨kind, place n⟩
  let tile : MarkerKind := .custom ⟨16⟩
  let array : Stmt :=
    .decl ⟨{ base := .float }, [⟨⟨20⟩, [], none, place 30⟩],
      [marker tile 31, marker .shared 32, marker (.custom ⟨17⟩) 33], place 34⟩ (place 35)
  let header : LoopHeader :=
    ⟨none, none, none, [marker tile 21, marker .outer 22, marker tile 23, marker .inner 24],
      place 25⟩
  ⟨⟨19⟩, [], { base := .void }, ⟨[.forLoop header array (place 36)], place 37⟩,
    [marker .kernel 1, marker tile 2, marker .outer 3], place 38⟩

/-- Once `tile` is registered for loops, in two calls of which one is idle, its two
problems on the loop are gone and those on the function and the declaration stay. -/
theorem registration_lifts_tiledSample :
    let calls : List (Name × Targets) := [(⟨16⟩, .only .loop), (⟨16⟩, .empty)]
    let tile : MarkerKind := .custom ⟨16⟩
    let problems (r : Registry) := (Function.tiledSample.verdict .initial r .all).problems
    Registry.empty.IsWithin (.ofCalls calls) ∧
      problems .empty =
        [.unknownAttribute ⟨2, 3⟩ tile .function, .unknownAttribute ⟨3, 4⟩ .outer .function,
          .unknownAttribute ⟨21, 22⟩ tile .loop, .unknownAttribute ⟨23, 24⟩ tile .loop,
          .duplicateAttribute ⟨24, 25⟩ .inner ⟨22, 23⟩,
          .unknownAttribute ⟨31, 32⟩ tile .declaration,
          .unknownAttribute ⟨33, 34⟩ (.custom ⟨17⟩) .declaration,
          .badInduction ⟨25, 26⟩ ⟨25, 26⟩ .missingInit, .missingLoops ⟨38, 39⟩ ⟨19⟩ .inner] ∧
      problems (.ofCalls calls) =
        [.unknownAttribute ⟨2, 3⟩ tile .function, .unknownAttribute ⟨3, 4⟩ .outer .function,
          .duplicateAttribute ⟨24, 25⟩ .inner ⟨22, 23⟩,
          .unknownAttribute ⟨31, 32⟩ tile .declaration,
          .unknownAttribute ⟨33, 34⟩ (.custom ⟨17⟩) .declaration,
          .badInduction ⟨25, 26⟩ ⟨25, 26⟩ .missingInit, .missingLoops ⟨38, 39⟩ ⟨19⟩ .inner] ∧
      problems (.ofCalls calls) = problems (.ofCalls calls.reverse) := by
  intro calls tile problems
  have hwithin : Registry.empty.IsWithin (.ofCalls calls) := by
    intro name target h
    rw [show Registry.empty.targets name = .empty from rfl, Targets.contains_empty] at h
    cases h
  refine ⟨hwithin, by decide, ?_, ?_⟩
  · have hlifted := registration_lifts.1 .empty (.ofCalls calls) hwithin Function.tiledSample
      .initial
    exact hlifted.trans (by decide)
  · have hcalls : ∀ call, call ∈ calls ↔ call ∈ calls.reverse := fun _ => List.mem_reverse.symm
    exact congrArg (·.problems)
      (registration_lifts.2.2 calls calls.reverse hcalls Function.tiledSample .initial .all)

end KernelCheck
