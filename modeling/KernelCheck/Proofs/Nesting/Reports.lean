import KernelCheck.Proofs.Nesting.Chains
import Mathlib.Data.List.Basic

/-!
# The list of nesting problems

Which nesting problems a kernel has, and in which order, said of its loops and of what
stands around them.

1. A loop is misplaced or not by the loops around it (`hierarchyProblems_eq`).
2. The loops on a frontier are those with one container, each with its depth
   (`frontier_eq_placed`), so the first of them is the first sibling of each
   (`siblingProblems_eq`).
3. Every loop has one container at most, so the frontiers share the loops out
   (`depthProblems_perm`).

`nesting_lists` puts the three together.
-/

namespace KernelCheck

/-- Where a loop stands, as its header has it. -/
def Stmt.headSpan (s : Stmt) : Span := (s.loop?.map (·.span)).getD s.span

namespace PlacedStmt

/-- The outermost inner loop around a statement. -/
def outermostInner? (x : PlacedStmt) : Option NumberedStmt :=
  x.around.reverse.find? (·.stmt.role == .inner)

/-- An outer loop must not stand inside an inner one, and an inner loop must stand
inside an outer or inner one. -/
def misplaced? (x : PlacedStmt) : Option Problem :=
  match x.stmt.role with
  | .outer => x.outermostInner?.map fun y => .outerBelowInner x.stmt.headSpan y.stmt.headSpan
  | .inner => if x.container?.isNone then some (.innerOutsideOuter x.stmt.headSpan) else none
  | .plain => none

/-- The first outer loop, or the first inner loop, with the container that `x` has. -/
def firstSibling? (all : List PlacedStmt) (x : PlacedStmt) : Option PlacedStmt :=
  if x.stmt.role.isAttributed && x.container?.isSome then
    all.find? fun y => y.stmt.role == x.stmt.role && y.container? == x.container?
  else none

/-- A loop has to be as deep as its first sibling. -/
noncomputable def unevenDepth? (all : List PlacedStmt) (x : PlacedStmt) : Option Problem :=
  (x.firstSibling? all).bind fun first =>
    if x.depth all = first.depth all then none
    else
      some (.unevenDepth x.stmt.headSpan (x.depth all) (first.depth all) first.stmt.headSpan)

end PlacedStmt

/-- A kernel must have an outer loop and an inner loop. -/
def Function.missingLoops (kernel : Function) : List Problem :=
  if ∃ x ∈ kernel.placed, x.stmt.role = .outer then
    if ∃ x ∈ kernel.placed, x.stmt.role = .inner then []
    else [.missingLoops kernel.span kernel.name .inner]
  else if ∃ x ∈ kernel.placed, x.stmt.role = .inner then
    [.missingLoops kernel.span kernel.name .outer]
  else [.missingLoops kernel.span kernel.name .both]

namespace Nesting

/-! ## Presence -/

/-- A kernel has a loop of a role if a loop of that role is placed in it. -/
theorem any_loops_iff (kernel : Function) (role : LoopRole) (hrole : role ≠ .plain) :
    kernel.loops.any (·.role == role) = true ↔ ∃ x ∈ kernel.placed, x.stmt.role = role := by
  rw [kernel.loops_eq_filterMap, List.any_eq_true]
  constructor
  · rintro ⟨h, hmem, heq⟩
    obtain ⟨x, hx, hloop⟩ := List.mem_filterMap.mp hmem
    exact ⟨x, hx, by simpa [Stmt.role, hloop] using heq⟩
  · rintro ⟨x, hx, rfl⟩
    cases hloop : x.stmt.loop? with
    | none => exact absurd (by simp [Stmt.role, hloop]) hrole
    | some h => exact ⟨h, List.mem_filterMap.mpr ⟨x, hx, hloop⟩, by simp [Stmt.role, hloop]⟩

/-- The missing loops are those that no placed statement is. -/
theorem presenceProblems_eq (kernel : Function) :
    presenceProblems kernel = kernel.missingLoops := by
  have houter := any_loops_iff kernel .outer (by decide)
  have hinner := any_loops_iff kernel .inner (by decide)
  unfold presenceProblems missingLevel? Function.missingLoops
  simp only [← houter, ← hinner]
  cases kernel.loops.any (·.role == .outer) <;> cases kernel.loops.any (·.role == .inner) <;> rfl

/-! ## Hierarchy -/

/-- The problems of the hierarchy: that of the statement itself, and those below it. -/
theorem hierarchyProblems_eq_append (above : Above) (s : Stmt) :
    hierarchyProblems above s =
      (s.loop?.bind above.problem?).toList ++
        hierarchyProblemsList (s.loop?.elim above above.enter) s.children := by
  cases s <;> simp [hierarchyProblems, hierarchyProblemsList, Stmt.loop?, Stmt.children]

/-- What is remembered of the loops around a statement is what there is. -/
structure Recalls (above : Above) (around : List NumberedStmt) : Prop where
  outer : above.hasOuter = around.any (·.stmt.role == .outer)
  inner : above.outermostInner =
    (around.reverse.find? (·.stmt.role == .inner)).map (·.stmt.headSpan)

/-- What is above a point recalls the loops around it, one by one. -/
theorem Recalls.enter {above : Above} {around : List NumberedStmt} (h : Recalls above around)
    (y : NumberedStmt) : Recalls (y.stmt.loop?.elim above above.enter) (y :: around) := by
  have houter := h.outer
  have hinner := h.inner
  cases hloop : y.stmt.loop? with
  | none =>
      have hrole : y.stmt.role = .plain := by simp [Stmt.role, hloop]
      constructor <;> simp [hrole, houter, hinner]
  | some header =>
      have hrole : y.stmt.role = header.role := by simp [Stmt.role, hloop]
      have hspan : y.stmt.headSpan = header.span := by simp [Stmt.headSpan, hloop]
      rw [Option.elim_some, Above.enter]
      cases hr : header.role with
      | plain => constructor <;> simp [hrole, hr, houter, hinner]
      | outer => constructor <;> simp [hrole, hr, hinner]
      | inner =>
          constructor
          · simp [hrole, hr, houter]
          · rw [hinner, List.reverse_cons, List.find?_append]
            cases around.reverse.find? (·.stmt.role == .inner) <;> simp [hrole, hr, hspan]

/-- A statement has no container if it stands in neither an inner nor an outer loop. -/
theorem container?_eq_none_iff (x : PlacedStmt) :
    x.container? = none ↔
      x.outermostInner? = none ∧ x.around.any (·.stmt.role == .outer) = false := by
  simp only [PlacedStmt.container?, nearestLoop?, PlacedStmt.outermostInner?,
    Option.map_eq_none_iff, List.find?_eq_none, List.mem_reverse, List.any_eq_false, beq_iff_eq]
  constructor
  · intro h
    constructor <;>
      · intro y hy hrole
        exact h y hy (by rw [hrole]; rfl)
  · rintro ⟨hinner, houter⟩ y hy hattributed
    cases hrole : y.stmt.role with
    | plain => rw [hrole] at hattributed; cases hattributed
    | outer => exact houter y hy hrole
    | inner => exact hinner y hy hrole

/-- The problem with a loop is read off what is remembered. -/
theorem Recalls.problem?_eq {above : Above} {around : List NumberedStmt} (h : Recalls above around)
    (y : NumberedStmt) : y.stmt.loop?.bind above.problem? = PlacedStmt.misplaced? ⟨y, around⟩ := by
  cases hloop : y.stmt.loop? with
  | none =>
      have hrole : y.stmt.role = .plain := by simp [Stmt.role, hloop]
      simp [PlacedStmt.misplaced?, hrole]
  | some header =>
      have hrole : y.stmt.role = header.role := by simp [Stmt.role, hloop]
      have hspan : y.stmt.headSpan = header.span := by simp [Stmt.headSpan, hloop]
      rw [Option.bind_some]
      have hcontainer := container?_eq_none_iff ⟨y, around⟩
      rw [PlacedStmt.outermostInner?] at hcontainer
      unfold Above.problem? PlacedStmt.misplaced? PlacedStmt.outermostInner?
      simp only [hrole, hspan, h.inner, h.outer]
      cases header.role with
      | plain => rfl
      | outer => cases around.reverse.find? (·.stmt.role == .inner) <;> rfl
      | inner =>
          cases hfind : around.reverse.find? (·.stmt.role == .inner) <;>
            cases hany : around.any (·.stmt.role == .outer) <;>
              simp [hcontainer, hfind, hany]

/-- **Loops in a wrong place** are reported in the order in which they are placed. -/
theorem hierarchyProblems_eq :
    (∀ (s : Stmt) (above : Above) (around : List NumberedStmt) (next : Nat),
      Recalls above around →
        hierarchyProblems above s = (s.placed around next).filterMap PlacedStmt.misplaced?) ∧
    ∀ (stmts : List Stmt) (above : Above) (around : List NumberedStmt) (next : Nat),
      Recalls above around →
        hierarchyProblemsList above stmts =
          (Stmt.placedList around next stmts).filterMap PlacedStmt.misplaced? := by
  apply Stmt.inductionOnInside
  case stmt =>
    intro s ih above around next h
    rw [hierarchyProblems_eq_append, Stmt.placed_eq_cons, List.filterMap_cons,
      ih _ _ (next + 1) (h.enter ⟨next, s⟩), h.problem?_eq ⟨next, s⟩]
    cases PlacedStmt.misplaced? ⟨⟨next, s⟩, around⟩ <;> rfl
  case nil => intros; rfl
  case cons =>
    intro s rest ihs ihrest above around next h
    rw [hierarchyProblemsList, Stmt.placedList, List.filterMap_append, ihs _ _ next h,
      ihrest _ _ _ h]

/-! ## Frontiers -/

/-- The loops of one role on a frontier. -/
def Frontier.ofRole (fr : Frontier) : LoopRole → List FrontierLoop
  | .outer => fr.outer
  | .inner => fr.inner
  | .plain => []

/-- The loops of one role on two frontiers. -/
theorem Frontier.ofRole_append (a b : Frontier) (role : LoopRole) :
    (a.append b).ofRole role = a.ofRole role ++ b.ofRole role := by
  cases role <;> rfl

/-- An outer or inner loop is alone on the frontier of its statement. -/
theorem ofRole_frontier_of_attributed {s : Stmt} (hs : s.role.isAttributed) {role : LoopRole}
    (hrole : role.isAttributed) :
    (frontier s).ofRole role =
      if s.role = role then
        [⟨s.headSpan, Stmt.innerLevelsList s.children + if s.role = .inner then 1 else 0⟩]
      else [] := by
  cases s with
  | forLoop header body span =>
      change header.role.isAttributed at hs
      change (if header.role.isAttributed then Frontier.empty.add header (frontier body).innerDepth
        else frontier body).ofRole role = if header.role = role then _ else _
      have hlevels : Stmt.innerLevelsList (Stmt.children (.forLoop header body span)) =
          body.innerLevels := by
        simp [Stmt.children, Stmt.innerLevelsList]
      rw [if_pos hs, innerDepth_frontier, hlevels, Frontier.add]
      cases hr : header.role with
      | plain => rw [hr] at hs; cases hs
      | outer =>
          cases role <;> simp [hr, Frontier.ofRole, Frontier.empty, Stmt.headSpan, Stmt.loop?]
      | inner =>
          cases role <;> simp [hr, Frontier.ofRole, Frontier.empty, Stmt.headSpan, Stmt.loop?]
  | _ => cases hs

/-- The frontier of a plain statement is that of its children. -/
theorem frontier_of_plain {s : Stmt} (hs : s.role.isAttributed = false) :
    frontier s = frontierList s.children := by
  cases s with
  | forLoop header body span =>
      change header.role.isAttributed = false at hs
      rw [frontier, hs]
      simp [Stmt.children, frontierList]
  | _ => simp [frontier, Stmt.children, frontierList]

variable {all : List PlacedStmt}

/-- A loop as its frontier has it. -/
noncomputable def frontierLoop (all : List PlacedStmt) (x : PlacedStmt) : FrontierLoop :=
  ⟨x.stmt.headSpan, x.depth all⟩

/-- The loops of a role with a container. -/
def hasContainer (role : LoopRole) (container : Option Nat) (x : PlacedStmt) : Bool :=
  x.stmt.role == role && x.container? == container

/-- **The loops on a frontier** are those with the container that the whole has. -/
theorem frontier_eq_placed {role : LoopRole} (hrole : role.isAttributed) :
    (∀ (s : Stmt) (around : List NumberedStmt) (next : Nat),
      Covers all around next (s.placed around next) →
        (frontier s).ofRole role =
          ((s.placed around next).filter (hasContainer role (nearestLoop? around))).map
            (frontierLoop all)) ∧
    ∀ (stmts : List Stmt) (around : List NumberedStmt) (next : Nat),
      Covers all around next (Stmt.placedList around next stmts) →
        (frontierList stmts).ofRole role =
          ((Stmt.placedList around next stmts).filter
            (hasContainer role (nearestLoop? around))).map (frontierLoop all) := by
  apply Stmt.inductionOnInside
  case stmt =>
    intro s ih around next hcovers
    have ih := ih _ _ hcovers.inside
    cases hs : s.role.isAttributed with
    | true =>
        have hinside : (Stmt.placedList (⟨next, s⟩ :: around) (next + 1) s.children).filter
            (hasContainer role (nearestLoop? around)) = [] := by
          rw [List.filter_eq_nil_iff]
          intro x hx
          simp [hasContainer, container_ne hs hcovers.below hx]
        rw [ofRole_frontier_of_attributed hs hrole, Stmt.placed_eq_cons, List.filter_cons, hinside]
        by_cases heq : s.role = role
        · have hhead : hasContainer role (nearestLoop? around) ⟨⟨next, s⟩, around⟩ = true := by
            simp [hasContainer, heq, PlacedStmt.container?]
          rw [if_pos heq, if_pos hhead, List.map_singleton, frontierLoop, depth_eq hs hcovers]
        · have hhead : ¬ hasContainer role (nearestLoop? around) ⟨⟨next, s⟩, around⟩ = true := by
            simp [hasContainer, heq]
          rw [if_neg heq, if_neg hhead, List.map_nil]
    | false =>
        have hhead : ¬ hasContainer role (nearestLoop? around) ⟨⟨next, s⟩, around⟩ = true := by
          have hne : s.role ≠ role := by
            rintro rfl
            rw [hs] at hrole
            cases hrole
          simp [hasContainer, hne]
        rw [frontier_of_plain hs, ih, nearestLoop?_cons_of_plain (y := ⟨next, s⟩) hs,
          Stmt.placed_eq_cons, List.filter_cons_of_neg hhead]
  case nil =>
    intros
    cases role <;> rfl
  case cons =>
    intro s rest ihs ihrest around next hcovers
    obtain ⟨hs, hrest⟩ := hcovers.split
    rw [frontierList, Frontier.ofRole_append, ihs _ _ hs, ihrest _ _ hrest, Stmt.placedList,
      List.filter_append, List.map_append]

/-! ## Siblings -/

/-- A plain statement has no depth to be compared. -/
theorem unevenDepth?_of_plain {x : PlacedStmt} (h : x.stmt.role.isAttributed = false) :
    x.unevenDepth? all = none := by
  simp [PlacedStmt.unevenDepth?, PlacedStmt.firstSibling?, h]

/-- A loop without a container is not compared. -/
theorem unevenDepth?_of_top {x : PlacedStmt} (h : x.container? = none) :
    x.unevenDepth? all = none := by
  simp [PlacedStmt.unevenDepth?, PlacedStmt.firstSibling?, h]

/-- Only loops with a container are compared. -/
theorem filterMap_unevenDepth?_of_contained (xs : List PlacedStmt) :
    (xs.filter (·.container? != none)).filterMap (·.unevenDepth? all) =
      xs.filterMap (·.unevenDepth? all) := by
  rw [List.filterMap_filter]
  apply List.filterMap_congr
  intro x _
  cases hx : x.container? with
  | none => simp [unevenDepth?_of_top hx]
  | some n => rfl

/-- The rules compare each loop of a frontier with the first. -/
theorem siblingProblems_eq {xs : List PlacedStmt}
    (h : ∀ x ∈ xs, x.firstSibling? all = xs.head?) :
    siblingProblems (xs.map (frontierLoop all)) = xs.filterMap (·.unevenDepth? all) := by
  cases xs with
  | nil => rfl
  | cons first rest =>
      have huneven : ∀ x ∈ first :: rest, x.unevenDepth? all =
          if x.depth all = first.depth all then none
          else some (.unevenDepth x.stmt.headSpan (x.depth all) (first.depth all)
            first.stmt.headSpan) := by
        intro x hx
        rw [PlacedStmt.unevenDepth?, h x hx]
        rfl
      have hfirst : first.unevenDepth? all = none := by
        rw [huneven first List.mem_cons_self, if_pos rfl]
      rw [List.filterMap_cons_none hfirst, List.map_cons, siblingProblems]
      have huneven' := fun x hx => huneven x (List.mem_cons_of_mem _ hx)
      clear h huneven
      induction rest with
      | nil => rfl
      | cons x rest ih =>
          have ih := ih fun y hy => huneven' y (List.mem_cons_of_mem _ hy)
          have hx := huneven' x List.mem_cons_self
          rw [List.map_cons, List.filter_cons]
          by_cases hdepth : x.depth all = first.depth all
          · rw [if_pos hdepth] at hx
            rw [List.filterMap_cons_none hx, ← ih, if_neg (by simp [frontierLoop, hdepth])]
          · rw [if_neg hdepth] at hx
            rw [List.filterMap_cons_some hx, ← ih, if_pos (by simpa [frontierLoop] using hdepth),
              List.map_cons]
            rfl

/-- So it is with the loops inside an outer or inner loop. -/
theorem siblingProblems_inside {s : Stmt} (hs : s.role.isAttributed)
    {around : List NumberedStmt} {next : Nat}
    (h : Covers all around next (s.placed around next)) {role : LoopRole}
    (hrole : role.isAttributed) :
    siblingProblems ((frontierList s.children).ofRole role) =
      ((Stmt.placedList (⟨next, s⟩ :: around) (next + 1) s.children).filter
        (hasContainer role (some next))).filterMap (·.unevenDepth? all) := by
  have hnearest : nearestLoop? (⟨next, s⟩ :: around) = some next :=
    nearestLoop?_cons_of_attributed hs around
  have hall : all.filter (hasContainer role (some next)) =
      (Stmt.placedList (⟨next, s⟩ :: around) (next + 1) s.children).filter
        (hasContainer role (some next)) :=
    h.filter_container fun x => x.stmt.role == role
  rw [(frontier_eq_placed hrole).2 s.children _ _ h.inside, hnearest]
  apply siblingProblems_eq
  intro x hx
  obtain ⟨_, hx⟩ := List.mem_filter.mp hx
  simp only [hasContainer, Bool.and_eq_true, beq_iff_eq] at hx
  rw [← hall, List.head?_filter, PlacedStmt.firstSibling?, hx.1, hx.2, hrole]
  rfl

/-! ## All frontiers together -/

/-- The problems with depth: those below a statement, and those of the frontier that it holds. -/
theorem depthProblems_eq_append (s : Stmt) :
    depthProblems s = depthProblemsList s.children ++
      if s.role.isAttributed then (frontierList s.children).problems else [] := by
  cases s with
  | forLoop header body span =>
      simp [depthProblems, depthProblemsList, frontierList, Stmt.children, Stmt.role, Stmt.loop?]
  | _ => simp [depthProblems, depthProblemsList, Stmt.children, Stmt.role, Stmt.loop?,
      LoopRole.isAttributed]

/-- The loops with one container are the inner ones and the outer ones. -/
theorem perm_siblings (all : List PlacedStmt) (container : Option Nat) (xs : List PlacedStmt) :
    ((xs.filter (·.container? == container)).filterMap (·.unevenDepth? all)).Perm
      ((xs.filter (hasContainer .inner container)).filterMap (·.unevenDepth? all) ++
        (xs.filter (hasContainer .outer container)).filterMap (·.unevenDepth? all)) := by
  induction xs with
  | nil => exact .nil
  | cons x rest ih =>
      cases hc : x.container? == container with
      | false => simpa [List.filter_cons, hasContainer, hc] using ih
      | true =>
          cases hrole : x.stmt.role with
          | plain =>
              have hnone : x.unevenDepth? all = none := unevenDepth?_of_plain (by rw [hrole]; rfl)
              simpa [List.filter_cons, hasContainer, hc, hrole, hnone] using ih
          | inner =>
              cases hx : x.unevenDepth? all with
              | none => simpa [List.filter_cons, hasContainer, hc, hrole, hx] using ih
              | some problem =>
                  simpa [List.filter_cons, hasContainer, hc, hrole, hx] using ih.cons problem
          | outer =>
              cases hx : x.unevenDepth? all with
              | none => simpa [List.filter_cons, hasContainer, hc, hrole, hx] using ih
              | some problem =>
                  have hperm := (ih.cons problem).trans List.perm_middle.symm
                  simpa [List.filter_cons, hasContainer, hc, hrole, hx] using hperm

/-- Some statements are those without a given container, and its loops. -/
theorem perm_container (all : List PlacedStmt) (container : Option Nat) (xs : List PlacedStmt) :
    ((xs.filter (·.container? != container)).filterMap (·.unevenDepth? all) ++
      ((xs.filter (hasContainer .inner container)).filterMap (·.unevenDepth? all) ++
        (xs.filter (hasContainer .outer container)).filterMap (·.unevenDepth? all))).Perm
      (xs.filterMap (·.unevenDepth? all)) := by
  have hparts : (xs.filter (·.container? != container) ++
      xs.filter (·.container? == container)).Perm xs :=
    List.perm_append_comm.trans (List.filter_append_perm (·.container? == container) xs)
  have hsiblings := perm_siblings all container xs
  have huneven := hparts.filterMap (·.unevenDepth? all)
  rw [List.filterMap_append] at huneven
  exact (hsiblings.symm.append_left _).trans huneven

/-- **The frontiers share the loops out.**  The problems of all frontiers below some
statements are those of the loops in them, apart from the loops that the
statements themselves have on their frontier. -/
theorem depthProblems_perm :
    (∀ (s : Stmt) (around : List NumberedStmt) (next : Nat),
      Covers all around next (s.placed around next) →
        (depthProblems s).Perm
          (((s.placed around next).filter (·.container? != nearestLoop? around)).filterMap
            (·.unevenDepth? all))) ∧
    ∀ (stmts : List Stmt) (around : List NumberedStmt) (next : Nat),
      Covers all around next (Stmt.placedList around next stmts) →
        (depthProblemsList stmts).Perm
          (((Stmt.placedList around next stmts).filter
            (·.container? != nearestLoop? around)).filterMap (·.unevenDepth? all)) := by
  apply Stmt.inductionOnInside
  case stmt =>
    intro s ih around next hcovers
    have ih := ih _ _ hcovers.inside
    have hhead : ¬ (PlacedStmt.container? ⟨⟨next, s⟩, around⟩ != nearestLoop? around) = true := by
      simp [PlacedStmt.container?]
    rw [depthProblems_eq_append, Stmt.placed_eq_cons, List.filter_cons, if_neg hhead]
    cases hs : s.role.isAttributed with
    | false =>
        rw [nearestLoop?_cons_of_plain (y := ⟨next, s⟩) hs] at ih
        simpa using ih
    | true =>
        -- nothing inside has the container of the loop, and some has the loop as container
        have hself : (Stmt.placedList (⟨next, s⟩ :: around) (next + 1) s.children).filter
            (·.container? != nearestLoop? around) =
              Stmt.placedList (⟨next, s⟩ :: around) (next + 1) s.children := by
          rw [List.filter_eq_self]
          intro x hx
          simpa using container_ne hs hcovers.below hx
        have hparts := perm_container all (some next)
          (Stmt.placedList (⟨next, s⟩ :: around) (next + 1) s.children)
        rw [← siblingProblems_inside hs hcovers rfl, ← siblingProblems_inside hs hcovers rfl]
          at hparts
        rw [nearestLoop?_cons_of_attributed (y := ⟨next, s⟩) hs] at ih
        rw [hself, if_pos rfl]
        exact (ih.append_right _).trans hparts
  case nil => intros; exact .nil
  case cons =>
    intro s rest ihs ihrest around next hcovers
    obtain ⟨hs, hrest⟩ := hcovers.split
    rw [depthProblemsList, Stmt.placedList, List.filter_append, List.filterMap_append]
    exact (ihs _ _ hs).append (ihrest _ _ hrest)

end Nesting

/-- **The list of nesting problems.**  If all problems are wanted, the rules on nesting
list, in this order: the levels of loops that a kernel lacks; in source order, each
outer loop inside an inner one, with the outermost of these, and each inner loop
in no outer or inner loop; and each outer or inner loop that is not as deep as the
first of its role with the same container.  The depth of a loop is the number of
loops in a longest chain. -/
theorem nesting_lists (s : Subject) :
    (∃ uneven : List Problem,
      uneven.Perm (s.kernel.placed.filterMap (·.unevenDepth? s.kernel.placed)) ∧
        (Stage.nesting s (.empty .all)).problems =
          s.kernel.missingLoops ++ (s.kernel.placed.filterMap (·.misplaced?) ++ uneven)) ∧
      ∀ x ∈ s.kernel.placed, x.stmt.role.isAttributed →
        IsGreatest (x.chainLengths s.kernel.placed) (x.depth s.kernel.placed) := by
  have hcovers : Nesting.Covers s.kernel.placed [] 0 s.kernel.placed :=
    Nesting.Covers.top s.kernel.body.stmts
  constructor
  · refine ⟨Nesting.depthProblemsList s.kernel.body.stmts, ?_, ?_⟩
    · rw [← Nesting.filterMap_unevenDepth?_of_contained s.kernel.placed]
      exact Nesting.depthProblems_perm.2 s.kernel.body.stmts [] 0 hcovers
    · have hrecalls : Nesting.Recalls .nothing [] := ⟨rfl, rfl⟩
      rw [(Stage.nesting_finds s).all_eq, Subject.nestingProblems, Nesting.presenceProblems_eq,
        Nesting.hierarchyProblems_eq.2 s.kernel.body.stmts .nothing [] 0 hrecalls, Function.placed]
  · intro x hx hrole
    have hx := Nesting.Covers.of_mem.2 s.kernel.body.stmts [] 0 hcovers x hx
    have hgreatest := Nesting.isGreatest_chainLengths hrole hx
    rw [PlacedStmt.depth, hgreatest.csSup_eq]
    exact hgreatest

/-- An outer loop with two inner loops, of which the second goes one level deeper and
has an outer loop at the bottom; and beside it an inner loop of its own. -/
def Function.slopingSample : Function :=
  let span : Span := ⟨0, 1⟩
  let short := Stmt.markedLoop (some .inner) []
  let bottom := Stmt.markedLoop (some .outer) []
  let long := Stmt.markedLoop (some .inner) [.markedLoop (some .inner) [bottom]]
  ⟨.empty, [], { base := .void }, ⟨[.markedLoop (some .outer) [short, long], short], span⟩, [],
    span⟩

/-- The second inner loop is the fifth statement, after the outer loop with its block
and the first inner loop with its block. -/
theorem nesting_lists_slopingSample :
    (Stage.nesting ⟨.slopingSample, .initial, .empty⟩ (.empty .all)).problems.map (·.code) =
      [.outerBelowInner, .innerOutsideOuter, .unevenDepth] ∧
    ∃ x ∈ Function.slopingSample.placed, x.stmt.role = .inner ∧ x.number = 4 ∧
      IsGreatest (x.chainLengths Function.slopingSample.placed)
        (x.depth Function.slopingSample.placed) := by
  have hloop : ∃ x ∈ Function.slopingSample.placed, x.stmt.role = .inner ∧ x.number = 4 := by
    decide +kernel
  obtain ⟨x, hx, hrole, hnumber⟩ := hloop
  refine ⟨by decide +kernel, x, hx, hrole, hnumber, ?_⟩
  exact (nesting_lists ⟨.slopingSample, .initial, .empty⟩).2 x hx (by rw [hrole]; rfl)

end KernelCheck
