import KernelCheck.Proofs.Places
import KernelCheck.Proofs.Registration
import Mathlib.Data.List.Nodup
import Mathlib.Data.List.Perm.Subperm

/-!
# Two readings of a list of markers

The rules on markers read a list of markers against a registry and report what is wrong with it;
every other rule takes the first marker that gives a role and reports nothing.

There are three ingredients.

1.  The problems with a list can be read off marker by marker, once it is known which marker is
    the first to give a role (`judgeMarkers_eq`).
2.  If there are none, both readings find the same role (`Registry.strict_eq`), and no other
    marker of the list gives one (`Registry.countP_isBuiltin_le_one`).
3.  The lists of a kernel are its own and those of its statements, each of them at one place
    (`Stmt.markerSites_eq_flatMap`).

`roles_agree` puts them together.
-/

namespace KernelCheck

/-! ## One list of markers -/

namespace Registry

variable (r : Registry) (target : Target)

/-- A marker gives a node its role: it is a built-in one, and accepted on nodes of this kind. -/
def givesRole (m : Marker) : Bool := m.kind.isBuiltin && r.accepts m.kind target

/-- The first marker of a list that gives a role, with its index. -/
def firstRole? (markers : List Marker) : Option (Marker × Nat) :=
  markers.zipIdx.find? fun x => r.givesRole target x.1

/-- The problem with a marker at an index of a list, where `first` is the first marker that
gives a role. -/
def markerProblem? (first : Option (Marker × Nat)) (x : Marker × Nat) : Option Problem :=
  if r.accepts x.1.kind target = false then
    some (.unknownAttribute x.1.span x.1.kind target)
  else if x.1.kind.isBuiltin then
    first.bind fun y =>
      if x.2 = y.2 then none else some (.duplicateAttribute x.1.span x.1.kind y.1.span)
  else none

/-- The problems with a list of markers, one marker after the other. -/
def markerProblems (markers : List Marker) : List Problem :=
  markers.zipIdx.filterMap (r.markerProblem? target (r.firstRole? target markers))

variable {r target}

/-- A marker that gives a role is accepted. -/
theorem accepts_of_givesRole {m : Marker} (h : r.givesRole target m = true) :
    r.accepts m.kind target = true :=
  (Bool.and_eq_true_iff.mp h).2

/-- A marker that gives a role is built in. -/
theorem isBuiltin_of_givesRole {m : Marker} (h : r.givesRole target m = true) :
    m.kind.isBuiltin = true :=
  (Bool.and_eq_true_iff.mp h).1

/-- A marker that gives no role is no duplicate of another one. -/
theorem step_of_not_givesRole {m : Marker} (h : r.givesRole target m = false)
    (first : Option (Marker × Nat)) (i : Nat) (j : MarkerJudgement) :
    j.step r target m =
      { j with problems := j.problems ++ (r.markerProblem? target first (m, i)).toList } := by
  unfold MarkerJudgement.step markerProblem?
  cases haccepts : r.accepts m.kind target with
  | false => simp
  | true =>
      rw [givesRole, haccepts, Bool.and_true] at h
      simp [h]

/-- A marker that would give a role behind another one is a duplicate of that one. -/
theorem markerProblem?_of_givesRole {m : Marker} (h : r.givesRole target m = true)
    (y : Marker × Nat) (i : Nat) :
    r.markerProblem? target (some y) (m, i) =
      if i = y.2 then none else some (.duplicateAttribute m.span m.kind y.1.span) := by
  simp [markerProblem?, accepts_of_givesRole h, isBuiltin_of_givesRole h]

/-- The first marker that gives a role becomes the first one. -/
theorem step_none_of_givesRole {m : Marker} (h : r.givesRole target m = true)
    (problems : List Problem) :
    MarkerJudgement.step r target ⟨none, problems⟩ m = ⟨some m, problems⟩ := by
  simp [MarkerJudgement.step, accepts_of_givesRole h, isBuiltin_of_givesRole h]

/-- Every other one is a duplicate of it. -/
theorem step_some_of_givesRole {m : Marker} (h : r.givesRole target m = true) (first : Marker)
    (problems : List Problem) :
    MarkerJudgement.step r target ⟨some first, problems⟩ m =
      ⟨some first, problems ++ [.duplicateAttribute m.span m.kind first.span]⟩ := by
  simp [MarkerJudgement.step, accepts_of_givesRole h, isBuiltin_of_givesRole h]

variable (r target)

/-- **The rest of a list.**  Its markers have the indices from `i` on, and the judgement of
those in front has the first one with a role, if there was one.  The induction is on the rest;
what is first for all of it is first for what follows its first marker. -/
theorem foldl_step (rest : List Marker) (i : Nat) (first : Option (Marker × Nat))
    (problems : List Problem) (hfirst : ∀ y ∈ first, y.2 < i) :
    let found := first.or ((rest.zipIdx i).find? fun x => r.givesRole target x.1)
    rest.foldl (MarkerJudgement.step r target) ⟨first.map (·.1), problems⟩ =
      ⟨found.map (·.1), problems ++ (rest.zipIdx i).filterMap (r.markerProblem? target found)⟩ := by
  induction rest generalizing i first problems with
  | nil => simp
  | cons m rest ih =>
      intro found
      rw [List.foldl_cons, List.zipIdx_cons, List.filterMap_cons]
      cases hrole : r.givesRole target m with
      | false =>
          have hrest := ih (i + 1) first (problems ++ (r.markerProblem? target found (m, i)).toList)
            fun y hy => Nat.lt_succ_of_lt (hfirst y hy)
          have hfound : found = first.or ((rest.zipIdx (i + 1)).find? fun x =>
              r.givesRole target x.1) := by
            simp [found, List.zipIdx_cons, hrole]
          rw [step_of_not_givesRole hrole found i, hrest, ← hfound]
          cases r.markerProblem? target found (m, i) <;> simp
      | true =>
          cases first with
          | none =>
              have hfound : found = some (m, i) := by
                simp [found, List.zipIdx_cons, hrole]
              have hrest := ih (i + 1) (some (m, i)) problems (by simp)
              rw [Option.map_none, step_none_of_givesRole hrole, hfound,
                markerProblem?_of_givesRole hrole, if_pos rfl]
              exact hrest
          | some y =>
              have hy : i ≠ y.2 := by
                have := hfirst y rfl
                omega
              have hrest := ih (i + 1) (some y)
                (problems ++ [.duplicateAttribute m.span m.kind y.1.span])
                fun z hz => Nat.lt_succ_of_lt (hfirst z hz)
              have hfound : found = some y := rfl
              rw [Option.map_some, step_some_of_givesRole hrole, hfound,
                markerProblem?_of_givesRole hrole, if_neg hy]
              simpa using hrest

/-- The first marker with a role is found by a search. -/
theorem map_fst_firstRole? (markers : List Marker) :
    (r.firstRole? target markers).map (·.1) = markers.find? (r.givesRole target) := by
  have hfst : markers.zipIdx.map Prod.fst = markers := List.zipIdx_map_fst 0 markers
  conv_rhs => rw [← hfst, List.find?_map]
  rfl

end Registry

/-- **The judgement of a list of markers**: its problems marker by marker, or the first marker
that gives a role. -/
theorem judgeMarkers_eq (r : Registry) (target : Target) (markers : List Marker) :
    judgeMarkers r target markers =
      if r.markerProblems target markers = [] then
        .ok ((markers.find? (r.givesRole target)).map (·.kind))
      else .error (r.markerProblems target markers) := by
  have hfold := Registry.foldl_step r target markers 0 none [] (by simp)
  simp only [Option.map_none, Option.none_or, List.nil_append] at hfold
  change _ = MarkerJudgement.mk ((r.firstRole? target markers).map (·.1))
    (r.markerProblems target markers) at hfold
  rw [judgeMarkers, MarkerJudgement.start, hfold, Registry.map_fst_firstRole?]
  simp only [List.isEmpty_iff]

/-- **Judging markers** finds the problems that the markers have one by one. -/
theorem problemsOf_judgeMarkers_eq (r : Registry) (target : Target) (markers : List Marker) :
    problemsOf (judgeMarkers r target markers) = r.markerProblems target markers := by
  rw [judgeMarkers_eq]
  split
  case isTrue hempty => exact hempty.symm
  case isFalse => rfl

namespace Registry

variable {r : Registry} {target : Target} {markers : List Marker}

/-- In a list without problems, every built-in marker is the first one. -/
theorem eq_firstRole (h : r.markerProblems target markers = []) {x : Marker × Nat}
    (hx : x ∈ markers.zipIdx) (hbuiltin : x.1.kind.isBuiltin = true) :
    r.firstRole? target markers = some x := by
  have hnone := List.filterMap_eq_nil_iff.mp h x hx
  cases haccepts : r.accepts x.1.kind target with
  | false => simp [markerProblem?, haccepts] at hnone
  | true =>
      have hrole : r.givesRole target x.1 = true := by simp [givesRole, hbuiltin, haccepts]
      cases hfirst : r.firstRole? target markers with
      | none =>
          have := List.find?_eq_none.mp hfirst x hx
          exact absurd hrole this
      | some y =>
          rw [hfirst, markerProblem?_of_givesRole hrole] at hnone
          have hindex : x.2 = y.2 := by
            by_contra hne
            rw [if_neg hne] at hnone
            cases hnone
          have hy := List.mem_of_find?_eq_some hfirst
          rw [List.mem_zipIdx_iff_getElem?] at hx hy
          rw [hindex, hy] at hx
          have hmarker : y.1 = x.1 := Option.some.inj hx
          rw [Prod.ext hmarker hindex.symm]

/-- A list without problems has at most one built-in marker. -/
theorem countP_isBuiltin_le_one (h : r.markerProblems target markers = []) :
    markers.countP (·.kind.isBuiltin) ≤ 1 := by
  have hcount : markers.countP (·.kind.isBuiltin) =
      (markers.zipIdx.filter fun x => x.1.kind.isBuiltin).length := by
    rw [← List.countP_eq_length_filter]
    conv_lhs => rw [← List.zipIdx_map_fst 0 markers, List.countP_map]
    rfl
  have hindices : (markers.zipIdx.map Prod.snd).Nodup := by
    rw [List.zipIdx_map_snd]
    exact List.nodup_range'
  have hnodup : (markers.zipIdx.filter fun x => x.1.kind.isBuiltin).Nodup :=
    (hindices.of_map _).filter _
  rw [hcount]
  -- all of them are the first one, and no index occurs twice
  cases hfirst : r.firstRole? target markers with
  | none =>
      have hnil : (markers.zipIdx.filter fun x => x.1.kind.isBuiltin) = [] := by
        rw [List.filter_eq_nil_iff]
        intro x hx hbuiltin
        rw [eq_firstRole h hx hbuiltin] at hfirst
        cases hfirst
      rw [hnil]
      exact Nat.zero_le 1
  | some y =>
      have hsub : (markers.zipIdx.filter fun x => x.1.kind.isBuiltin) ⊆ [y] := by
        intro x hx
        obtain ⟨hx, hbuiltin⟩ := List.mem_filter.mp hx
        have heq := eq_firstRole h hx hbuiltin
        rw [hfirst] at heq
        rw [List.mem_singleton, Option.some.inj heq]
      exact (List.subperm_of_subset hnodup hsub).length_le

/-! ## Strict and lenient roles -/

/-- The markers that give a loop its role are those with a role for loops. -/
theorem givesRole_loop (r : Registry) (m : Marker) :
    r.givesRole .loop m = (LoopRole.ofKind? m.kind).isSome := by
  obtain ⟨kind, span⟩ := m
  cases kind <;> rfl

/-- The markers that give a declaration its role are those with a role for declarations. -/
theorem givesRole_declaration (r : Registry) (m : Marker) :
    r.givesRole .declaration m = (DeclRole.ofKind? m.kind).isSome := by
  obtain ⟨kind, span⟩ := m
  cases kind <;> rfl

/-- The marker that makes a function a kernel is that of kernels. -/
theorem givesRole_function (r : Registry) (m : Marker) :
    r.givesRole .function m = (m.kind == .kernel) := by
  obtain ⟨kind, span⟩ := m
  cases kind <;> rfl

/-- To look for a member with a value and take its value is one search. -/
theorem find?_isSome_bind {α β : Type} (f : α → Option β) (as : List α) :
    (as.find? fun a => (f a).isSome).bind f = as.findSome? f := by
  induction as with
  | nil => rfl
  | cons a rest ih =>
      cases hf : f a with
      | none => simpa [List.find?_cons, hf] using ih
      | some b => simp [hf]

/-- **Both readings.**  If exactly the markers with a role give one to nodes of this kind, the
first of them gives the role, wherever the list is without problems. -/
theorem strict_eq {R : Type} {role? : MarkerKind → Option R}
    (hrole : ∀ m, r.givesRole target m = (role? m.kind).isSome) (plain : R)
    (markers : List Marker) :
    (judgeMarkers r target markers).map (fun kind => (kind.bind role?).getD plain) =
      if r.markerProblems target markers = [] then
        .ok ((markers.findSome? fun m => role? m.kind).getD plain)
      else .error (r.markerProblems target markers) := by
  have hgives : r.givesRole target = fun m => (role? m.kind).isSome := funext hrole
  have hfind := find?_isSome_bind (fun m : Marker => role? m.kind) markers
  rw [judgeMarkers_eq, hgives, ← hfind]
  split
  case isTrue => simp [Except.map, Option.bind_map]
  case isFalse => rfl

end Registry

/-- The strict role of a loop is its lenient role if its markers have no problems. -/
theorem LoopHeader.strictRole_eq (h : LoopHeader) (r : Registry) :
    h.strictRole r =
      if r.markerProblems .loop h.markers = [] then .ok h.role
      else .error (r.markerProblems .loop h.markers) :=
  Registry.strict_eq r.givesRole_loop .plain h.markers

/-- The same for a declaration. -/
theorem Declaration.strictRole_eq (d : Declaration) (r : Registry) :
    d.strictRole r =
      if r.markerProblems .declaration d.markers = [] then .ok d.role
      else .error (r.markerProblems .declaration d.markers) :=
  Registry.strict_eq r.givesRole_declaration .plain d.markers

/-- The same for a function, which is a kernel or not. -/
theorem Function.strictKernel_eq (f : Function) (r : Registry) :
    f.strictKernel r =
      if r.markerProblems .function f.markers = [] then .ok f.isKernel
      else .error (r.markerProblems .function f.markers) := by
  have hgives : r.givesRole .function = fun m => m.kind == .kernel := funext r.givesRole_function
  rw [strictKernel, judgeMarkers_eq, hgives]
  split
  case isTrue =>
    have hkernel : ((f.markers.find? (·.kind == .kernel)).map (·.kind) == some .kernel) =
        f.isKernel := by
      rw [isKernel, hasMarker, ← List.isSome_find?]
      cases hfind : f.markers.find? (·.kind == .kernel) with
      | none => rfl
      | some m =>
          have hm : m.kind = .kernel := by simpa using List.find?_some hfind
          simp [hm]
    rw [Except.map, hkernel]
  case isFalse => rfl

/-- What a node is found to be if its list is in order. -/
theorem Registry.eq_and_countP_of_strict {R : Type} {r : Registry} {target : Target}
    {markers : List Marker} {strict : Except (List Problem) R} {lenient found : R}
    (hstrict : strict = if r.markerProblems target markers = [] then .ok lenient
      else .error (r.markerProblems target markers))
    (hok : strict = .ok found) :
    found = lenient ∧ markers.countP (·.kind.isBuiltin) ≤ 1 := by
  rw [hstrict] at hok
  split at hok
  case isTrue hempty => exact ⟨(Except.ok.inj hok).symm, countP_isBuiltin_le_one hempty⟩
  case isFalse => cases hok

/-! ## All lists of a kernel -/

/-- The nodes with markers that are a statement or stand in its header. -/
def Stmt.ownSites : Stmt → List MarkerSite
  | forLoop header _ _ => .loop header :: header.initSites
  | decl d _ => [.declaration d]
  | _ => []

namespace Stmt

/-- The places for markers in a statement: its own, and those of its children. -/
theorem markerSites_eq_append (s : Stmt) :
    s.markerSites = s.ownSites ++ markerSitesList s.children := by
  cases s <;> simp [markerSites, markerSitesList, ownSites, children]

/-- The nodes with markers of a statement, by the statements at all places in it. -/
theorem markerSites_eq_flatMap :
    (∀ (s : Stmt) (around : List NumberedStmt) (next : Nat),
      s.markerSites = (s.placed around next).flatMap (·.stmt.ownSites)) ∧
    ∀ (stmts : List Stmt) (around : List NumberedStmt) (next : Nat),
      markerSitesList stmts = (placedList around next stmts).flatMap (·.stmt.ownSites) := by
  apply inductionOnInside
  case stmt =>
    intro s ih around next
    rw [markerSites_eq_append, placed_eq_cons, List.flatMap_cons,
      ih (⟨next, s⟩ :: around) (next + 1)]
  case nil => intros; rfl
  case cons =>
    intro s rest ihs ihrest around next
    rw [markerSitesList, placedList, List.flatMap_append, ihs around next, ihrest around]

end Stmt

/-- The problems of a kernel's markers, by its statements. -/
theorem Subject.markerProblems_eq (s : Subject) :
    s.markerProblems =
      s.registry.markerProblems .function s.kernel.markers ++
        s.kernel.placed.flatMap fun x => x.stmt.ownSites.flatMap fun site =>
          s.registry.markerProblems site.target site.markers := by
  have hsite : ∀ site : MarkerSite,
      site.problems s.registry = s.registry.markerProblems site.target site.markers := by
    intro site
    rw [site.problems_eq, problemsOf_judgeMarkers_eq]
  have hsites := Stmt.markerSites_eq_flatMap.2 s.kernel.body.stmts [] 0
  rw [Subject.markerProblems, Function.strictKernel, problemsOf_map, problemsOf_judgeMarkers_eq,
    hsites, List.flatMap_assoc]
  simp only [hsite, Function.placed]

/-- **Strict and lenient roles agree.**  A list of markers is judged marker by marker: those
that are not accepted are unknown, all built-in ones but the first are duplicates of the
first, and nothing else is wrong.  A loop, a declaration or a function whose list is in order
has the role that its first role marker gives, and has no other built-in marker.  The rules
on markers report the problems with the kernel's own list and then with the lists of its
statements in source order, each of them once. -/
theorem roles_agree (s : Subject) :
    (∀ (r : Registry) (target : Target) (markers : List Marker),
      judgeMarkers r target markers =
        if r.markerProblems target markers = [] then
          .ok ((markers.find? (r.givesRole target)).map (·.kind))
        else .error (r.markerProblems target markers)) ∧
    (∀ (r : Registry) (h : LoopHeader) (role : LoopRole), h.strictRole r = .ok role →
      role = h.role ∧ h.markers.countP (·.kind.isBuiltin) ≤ 1) ∧
    (∀ (r : Registry) (d : Declaration) (role : DeclRole), d.strictRole r = .ok role →
      role = d.role ∧ d.markers.countP (·.kind.isBuiltin) ≤ 1) ∧
    (∀ (r : Registry) (f : Function) (kernel : Bool), f.strictKernel r = .ok kernel →
      kernel = f.isKernel ∧ f.markers.countP (·.kind.isBuiltin) ≤ 1) ∧
    (Stage.markers s (.empty .all)).problems =
      s.registry.markerProblems .function s.kernel.markers ++
        (s.kernel.placed.flatMap fun x => x.stmt.ownSites.flatMap fun site =>
          s.registry.markerProblems site.target site.markers) ∧
    s.kernel.placed.map (·.number) = List.range s.kernel.placed.length := by
  refine ⟨judgeMarkers_eq, ?loops, ?declarations, ?functions, ?stage,
    s.kernel.map_number_placed⟩
  case loops => exact fun r h role => Registry.eq_and_countP_of_strict (h.strictRole_eq r)
  case declarations => exact fun r d role => Registry.eq_and_countP_of_strict (d.strictRole_eq r)
  case functions => exact fun r f kernel => Registry.eq_and_countP_of_strict (f.strictKernel_eq r)
  case stage => rw [(Stage.markers_finds s).all_eq, s.markerProblems_eq]

/-- Where `tile` is known on loops and declarations and `pad` on declarations, `@tile @inner`,
`@pad @shared` and `@kernel` are in order.  In the sample, one word is not accepted on the kernel,
nor is `@outer`, and the `@inner` of the loop comes behind its `@outer`. -/
theorem roles_agree_tiledSample :
    let tile : MarkerKind := .custom ⟨16⟩
    let pad : MarkerKind := .custom ⟨17⟩
    let r : Registry := .ofCalls
      [(⟨16⟩, .only .loop), (⟨17⟩, .only .declaration), (⟨16⟩, .only .declaration)]
    let header : LoopHeader := ⟨none, none, none, [⟨tile, ⟨1, 2⟩⟩, ⟨.inner, ⟨2, 3⟩⟩], ⟨3, 4⟩⟩
    let d : Declaration := ⟨{ base := .float }, [], [⟨pad, ⟨5, 6⟩⟩, ⟨.shared, ⟨6, 7⟩⟩], ⟨7, 8⟩⟩
    let f : Function := { Function.tiledSample with markers := [⟨.kernel, ⟨9, 10⟩⟩] }
    (header.strictRole r = .ok .inner ∧ header.role = .inner) ∧
      (d.strictRole r = .ok .shared ∧ d.role = .shared) ∧
      (f.strictKernel r = .ok true ∧ f.isKernel = true) ∧
      (Stage.markers ⟨.tiledSample, .initial, r⟩ (.empty .all)).problems =
        [.unknownAttribute ⟨2, 3⟩ tile .function, .unknownAttribute ⟨3, 4⟩ .outer .function,
          .duplicateAttribute ⟨24, 25⟩ .inner ⟨22, 23⟩] := by
  intro tile pad r header d f
  have hheader : header.strictRole r = .ok .inner := rfl
  have hd : d.strictRole r = .ok .shared := rfl
  have hf : f.strictKernel r = .ok true := rfl
  obtain ⟨-, hloops, hdeclarations, hfunctions, hstage, -⟩ :=
    roles_agree ⟨.tiledSample, .initial, r⟩
  refine ⟨⟨hheader, ?_⟩, ⟨hd, ?_⟩, ⟨hf, ?_⟩, ?_⟩
  · exact (hloops r header .inner hheader).1.symm
  · exact (hdeclarations r d .shared hd).1.symm
  · exact (hfunctions r f true hf).1.symm
  · rw [hstage]
    decide

end KernelCheck
