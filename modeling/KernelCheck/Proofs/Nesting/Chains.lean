import KernelCheck.Proofs.Nesting.Soundness
import KernelCheck.Proofs.Places
import Mathlib.Order.ConditionallyCompleteLattice.Basic
import Mathlib.Order.Lattice.Nat

/-!
# Chains of inner loops

The depth of a loop is the length of a longest chain of inner loops below it, in
which each loop is the innermost outer or inner loop around the next.  That is a
statement about all loops of a kernel and what stands around them.  The rules on
nesting count levels instead, statement by statement.

1. What stands inside a statement is listed together (`Covers`), so whatever a
   statement of it stands around is listed there as well.
2. A chain that starts in a statement has no more loops than the statement has
   levels (`length_le_innerLevels`).
3. Some chain has as many (`exists_chain`).

`isGreatest_chainLengths` puts the last two together.
-/

namespace KernelCheck

/-- The number of the innermost outer or inner loop among the statements around a place. -/
def nearestLoop? (around : List NumberedStmt) : Option Nat :=
  (around.find? (·.stmt.role.isAttributed)).map (·.number)

namespace PlacedStmt

/-- The nearest outer or inner loop around a statement. -/
def container? (x : PlacedStmt) : Option Nat := nearestLoop? x.around

/-- Inner loops, all among the given statements: the container of the first one
has the number `top`, and the container of each further one is the loop before. -/
inductive InnerChain (all : List PlacedStmt) : Nat → List PlacedStmt → Prop
  | nil (top : Nat) : InnerChain all top []
  | cons {top : Nat} {x : PlacedStmt} {rest : List PlacedStmt} (mem : x ∈ all)
      (inner : x.stmt.role = .inner) (below : x.container? = some top)
      (tail : InnerChain all x.number rest) : InnerChain all top (x :: rest)

/-- A chain that starts with `x` if that is an inner loop, and below `x` otherwise. -/
def IsChainFrom (all : List PlacedStmt) (x : PlacedStmt) (chain : List PlacedStmt) : Prop :=
  match x.stmt.role with
  | .inner => ∃ rest, chain = x :: rest ∧ InnerChain all x.number rest
  | .outer | .plain => InnerChain all x.number chain

/-- How many loops the chains from `x` have. -/
def chainLengths (all : List PlacedStmt) (x : PlacedStmt) : Set Nat :=
  { n | ∃ chain, IsChainFrom all x chain ∧ chain.length = n }

/-- How many loops a longest chain from `x` has. -/
noncomputable def depth (all : List PlacedStmt) (x : PlacedStmt) : Nat := sSup (chainLengths all x)

end PlacedStmt

namespace Nesting

/-! ## Nearest loops -/

/-- An attributed loop around a point is the nearest one. -/
theorem nearestLoop?_cons_of_attributed {y : NumberedStmt} (hy : y.stmt.role.isAttributed)
    (around : List NumberedStmt) : nearestLoop? (y :: around) = some y.number := by
  simp [nearestLoop?, hy]

/-- Other statements around a point are passed over. -/
theorem nearestLoop?_cons_of_plain {y : NumberedStmt} (hy : y.stmt.role.isAttributed = false)
    (around : List NumberedStmt) : nearestLoop? (y :: around) = nearestLoop? around := by
  simp [nearestLoop?, hy]

/-- The nearest loop is sought further in first. -/
theorem nearestLoop?_append (between around : List NumberedStmt) :
    nearestLoop? (between ++ around) = (nearestLoop? between).or (nearestLoop? around) := by
  unfold nearestLoop?
  rw [List.find?_append]
  cases between.find? (·.stmt.role.isAttributed) <;> rfl

/-- The nearest loop is one of the statements around the point. -/
theorem exists_of_nearestLoop? {around : List NumberedStmt} {n : Nat}
    (h : nearestLoop? around = some n) : ∃ y ∈ around, y.number = n := by
  obtain ⟨y, hy, hn⟩ := Option.map_eq_some_iff.mp h
  exact ⟨y, List.mem_of_find?_eq_some hy, hn⟩

/-! ## What is listed together -/

/-- `xs` are all those of the listed statements that stand inside statements
numbered from `next` on as far as `xs` goes, and possibly further ones. -/
structure Covers (all : List PlacedStmt) (around : List NumberedStmt) (next : Nat)
    (xs : List PlacedStmt) : Prop where
  subset : ∀ x ∈ xs, x ∈ all
  below : ∀ y ∈ around, y.number < next
  /-- A search for statements that stand inside those can be cut down to `xs`. -/
  filter_eq : ∀ p : PlacedStmt → Bool,
    (∀ x, p x → ∃ y ∈ x.around, next ≤ y.number ∧ y.number < next + xs.length) →
      all.filter p = xs.filter p

namespace Covers

variable {all : List PlacedStmt} {around : List NumberedStmt} {next : Nat}

/-- At the top everything is covered. -/
theorem top (stmts : List Stmt) :
    Covers (Stmt.placedList [] 0 stmts) [] 0 (Stmt.placedList [] 0 stmts) :=
  ⟨fun _ hx => hx, by simp, fun _ _ => rfl⟩

/-- What is covered in a statement is covered in its children. -/
theorem inside {s : Stmt} (h : Covers all around next (s.placed around next)) :
    Covers all (⟨next, s⟩ :: around) (next + 1)
      (Stmt.placedList (⟨next, s⟩ :: around) (next + 1) s.children) := by
  rw [Stmt.placed_eq_cons] at h
  refine ⟨fun x hx => h.subset x (List.mem_cons_of_mem _ hx), ?_, ?_⟩
  · intro y hy
    rcases List.mem_cons.mp hy with rfl | hy
    · exact Nat.lt_succ_self next
    · exact Nat.lt_succ_of_lt (h.below y hy)
  · intro p hp
    have hhead : p ⟨⟨next, s⟩, around⟩ = false := by
      cases hps : p ⟨⟨next, s⟩, around⟩ with
      | false => rfl
      | true =>
          obtain ⟨y, hy, hfirst, _⟩ := hp _ hps
          have := h.below y hy
          omega
    rw [h.filter_eq p, List.filter_cons_of_neg (by simp [hhead])]
    intro x hx
    obtain ⟨y, hy, hfirst, hlast⟩ := hp x hx
    rw [List.length_cons]
    exact ⟨y, hy, by omega, by omega⟩

/-- Nothing is found among statements that stand beside those it has to stand inside. -/
theorem filter_eq_nil {ys : List PlacedStmt} {first stop a b : Nat} {p : PlacedStmt → Bool}
    (hys : ∀ x ∈ ys, x.StandsIn around first stop) (hbelow : ∀ y ∈ around, y.number < a)
    (hapart : stop ≤ a ∨ b ≤ first)
    (hp : ∀ x, p x → ∃ y ∈ x.around, a ≤ y.number ∧ y.number < b) : ys.filter p = [] := by
  rw [List.filter_eq_nil_iff]
  intro x hx hpx
  obtain ⟨between, heq, hbetween⟩ := (hys x hx).inside
  obtain ⟨y, hy, hfirst, hlast⟩ := hp x hpx
  rw [heq] at hy
  rcases List.mem_append.mp hy with hy | hy
  · have hrange := hbetween y hy
    omega
  · have := hbelow y hy
    omega

/-- Of two lists of statements side by side each is covered by itself. -/
theorem split {s : Stmt} {rest : List Stmt}
    (h : Covers all around next (Stmt.placedList around next (s :: rest))) :
    Covers all around next (s.placed around next) ∧
      Covers all around (next + (s.placed around next).length)
        (Stmt.placedList around (next + (s.placed around next).length) rest) := by
  rw [Stmt.placedList] at h
  have hbelow := h.below
  have hbelow' : ∀ y ∈ around, y.number < next + (s.placed around next).length := by
    intro y hy
    have := hbelow y hy
    omega
  have hfilter := h.filter_eq
  rw [List.length_append] at hfilter
  have hs := Stmt.standsIn_of_mem.1 s around next
  have hrest := Stmt.standsIn_of_mem.2 rest around (next + (s.placed around next).length)
  constructor
  · refine ⟨fun x hx => h.subset x (List.mem_append_left _ hx), hbelow, ?_⟩
    intro p hp
    rw [hfilter p, List.filter_append, filter_eq_nil hrest hbelow (Or.inr (Nat.le_refl _)) hp,
      List.append_nil]
    intro x hx
    obtain ⟨y, hy, hfirst, hlast⟩ := hp x hx
    exact ⟨y, hy, hfirst, by omega⟩
  · refine ⟨fun x hx => h.subset x (List.mem_append_right _ hx), hbelow', ?_⟩
    intro p hp
    rw [hfilter p, List.filter_append, filter_eq_nil hs hbelow' (Or.inl (Nat.le_refl _)) hp,
      List.nil_append]
    intro x hx
    obtain ⟨y, hy, hfirst, hlast⟩ := hp x hx
    exact ⟨y, hy, by omega, by omega⟩

/-- Statements whose container is the one at `next` stand inside that. -/
theorem filter_container {s : Stmt} (h : Covers all around next (s.placed around next))
    (p : PlacedStmt → Bool) :
    all.filter (fun x => p x && x.container? == some next) =
      (Stmt.placedList (⟨next, s⟩ :: around) (next + 1) s.children).filter
        (fun x => p x && x.container? == some next) := by
  have hhead : ¬ (p ⟨⟨next, s⟩, around⟩ &&
      PlacedStmt.container? ⟨⟨next, s⟩, around⟩ == some next) = true := by
    intro htrue
    rw [Bool.and_eq_true, beq_iff_eq] at htrue
    obtain ⟨y, hy, hnumber⟩ := exists_of_nearestLoop? htrue.2
    have := h.below y hy
    omega
  rw [h.filter_eq, Stmt.placed_eq_cons, List.filter_cons, if_neg hhead]
  intro x hx
  rw [Bool.and_eq_true, beq_iff_eq] at hx
  obtain ⟨y, hy, rfl⟩ := exists_of_nearestLoop? hx.2
  rw [Stmt.placed_eq_cons, List.length_cons]
  exact ⟨y, hy, Nat.le_refl _, by omega⟩

/-- What has a statement as its container stands below the statement. -/
theorem mem_inside {s : Stmt} (h : Covers all around next (s.placed around next))
    {x : PlacedStmt} (hx : x ∈ all) (hcontainer : x.container? = some next) :
    x ∈ Stmt.placedList (⟨next, s⟩ :: around) (next + 1) s.children := by
  have hmem : x ∈ all.filter (fun x => true && x.container? == some next) := by
    simpa using ⟨hx, hcontainer⟩
  rw [h.filter_container fun _ => true] at hmem
  exact (List.mem_filter.mp hmem).1

/-- What is listed with a statement is listed with each statement inside it. -/
theorem of_mem :
    (∀ (s : Stmt) (around : List NumberedStmt) (next : Nat),
      Covers all around next (s.placed around next) → ∀ x ∈ s.placed around next,
        Covers all x.around x.number (x.stmt.placed x.around x.number)) ∧
    ∀ (stmts : List Stmt) (around : List NumberedStmt) (next : Nat),
      Covers all around next (Stmt.placedList around next stmts) →
        ∀ x ∈ Stmt.placedList around next stmts,
          Covers all x.around x.number (x.stmt.placed x.around x.number) := by
  apply Stmt.inductionOnInside
  case stmt =>
    intro s ih around next h x hx
    rw [Stmt.placed_eq_cons] at hx
    rcases List.mem_cons.mp hx with rfl | hx
    · exact h
    · exact ih _ _ h.inside x hx
  case nil =>
    intro around next _ x hx
    cases hx
  case cons =>
    intro s rest ihs ihrest around next h x hx
    obtain ⟨hs, hrest⟩ := h.split
    rcases List.mem_append.mp hx with hx | hx
    · exact ihs _ _ hs x hx
    · exact ihrest _ _ hrest x hx

end Covers

/-- What stands inside an outer or inner loop has a container there. -/
theorem exists_container {s : Stmt} (hs : s.role.isAttributed) {around : List NumberedStmt}
    {next : Nat} {x : PlacedStmt}
    (hx : x ∈ Stmt.placedList (⟨next, s⟩ :: around) (next + 1) s.children) :
    ∃ n, x.container? = some n ∧ next ≤ n := by
  obtain ⟨between, heq, hbetween⟩ := (Stmt.standsIn_of_mem.2 _ _ _ x hx).inside
  unfold PlacedStmt.container?
  rw [heq, nearestLoop?_append, nearestLoop?_cons_of_attributed hs]
  cases hnearest : nearestLoop? between with
  | none => exact ⟨next, rfl, Nat.le_refl next⟩
  | some n =>
      obtain ⟨y, hy, rfl⟩ := exists_of_nearestLoop? hnearest
      exact ⟨y.number, rfl, Nat.le_of_succ_le (hbetween y hy).1⟩

/-- So it does not have the container of the loop. -/
theorem container_ne {s : Stmt} (hs : s.role.isAttributed) {around : List NumberedStmt}
    {next : Nat} (hbelow : ∀ y ∈ around, y.number < next) {x : PlacedStmt}
    (hx : x ∈ Stmt.placedList (⟨next, s⟩ :: around) (next + 1) s.children) :
    x.container? ≠ nearestLoop? around := by
  obtain ⟨n, hn, hle⟩ := exists_container hs hx
  intro heq
  obtain ⟨y, hy, hnumber⟩ := exists_of_nearestLoop? (heq.symm.trans hn)
  have := hbelow y hy
  omega

/-! ## Levels and chains -/

/-- The inner levels of a statement: one more than its children have for an inner loop, and none
for an outer one. -/
theorem innerLevels_eq (s : Stmt) :
    s.innerLevels = match s.role with
      | .inner => Stmt.innerLevelsList s.children + 1
      | .outer => 0
      | .plain => Stmt.innerLevelsList s.children := by
  cases s with
  | forLoop header body span =>
      change (match header.role with
        | .inner => body.innerLevels + 1 | .outer => 0 | .plain => body.innerLevels) = _
      simp [Stmt.role, Stmt.loop?, Stmt.children, Stmt.innerLevelsList]
  | _ => simp [Stmt.innerLevels, Stmt.innerLevelsList, Stmt.role, Stmt.loop?, Stmt.children]

/-- A chain whose first loop is one of `xs`, with a container out of `around`. -/
inductive StartsAmong (all xs : List PlacedStmt) (around : List NumberedStmt) :
    List PlacedStmt → Prop
  | intro {x : PlacedStmt} {rest : List PlacedStmt} (mem : x ∈ xs) (inner : x.stmt.role = .inner)
      (container : x.container? = nearestLoop? around)
      (tail : PlacedStmt.InnerChain all x.number rest) : StartsAmong all xs around (x :: rest)

variable {all : List PlacedStmt} {around : List NumberedStmt} {next : Nat}

/-- A chain that starts among some statements starts among more of them. -/
theorem StartsAmong.mono {xs ys : List PlacedStmt} {chain : List PlacedStmt}
    (h : StartsAmong all xs around chain) (hsub : ∀ x ∈ xs, x ∈ ys) :
    StartsAmong all ys around chain := by
  obtain ⟨mem, inner, container, tail⟩ := h
  exact ⟨hsub _ mem, inner, container, tail⟩

/-- The chains below an outer or inner loop start among the statements inside it. -/
theorem innerChain_iff {s : Stmt} (hs : s.role.isAttributed)
    (h : Covers all around next (s.placed around next)) (chain : List PlacedStmt) :
    PlacedStmt.InnerChain all next chain ↔
      chain = [] ∨
        StartsAmong all (Stmt.placedList (⟨next, s⟩ :: around) (next + 1) s.children)
          (⟨next, s⟩ :: around) chain := by
  have hnearest : nearestLoop? (⟨next, s⟩ :: around) = some next :=
    nearestLoop?_cons_of_attributed hs around
  constructor
  · rintro (_ | ⟨mem, inner, below, tail⟩)
    · exact Or.inl rfl
    · exact Or.inr ⟨h.mem_inside mem below, inner, below.trans hnearest.symm, tail⟩
  · rintro (rfl | ⟨mem, inner, container, tail⟩)
    · exact .nil next
    · exact .cons (h.inside.subset _ mem) inner (container.trans hnearest) tail

/-- **No chain is longer than there are levels.** -/
theorem length_le_innerLevels :
    (∀ (s : Stmt) (around : List NumberedStmt) (next : Nat),
      Covers all around next (s.placed around next) →
        ∀ chain, StartsAmong all (s.placed around next) around chain →
          chain.length ≤ s.innerLevels) ∧
    ∀ (stmts : List Stmt) (around : List NumberedStmt) (next : Nat),
      Covers all around next (Stmt.placedList around next stmts) →
        ∀ chain, StartsAmong all (Stmt.placedList around next stmts) around chain →
          chain.length ≤ Stmt.innerLevelsList stmts := by
  apply Stmt.inductionOnInside
  case stmt =>
    intro s ih around next hcovers chain hchain
    have ih := ih (⟨next, s⟩ :: around) (next + 1) hcovers.inside
    obtain ⟨mem, inner, container, tail⟩ := hchain
    rw [Stmt.placed_eq_cons] at mem
    rw [innerLevels_eq]
    rcases List.mem_cons.mp mem with rfl | mem
    · -- the chain goes on inside
      have hs : s.role = .inner := inner
      rw [hs]
      rcases (innerChain_iff (by rw [hs]; rfl) hcovers _).mp tail with rfl | hrest
      · simp
      · exact Nat.succ_le_succ (ih _ hrest)
    · have hplain : s.role.isAttributed = false := by
        cases hs : s.role.isAttributed with
        | false => rfl
        | true => exact absurd container (container_ne hs hcovers.below mem)
      have hs : s.role = .plain := by simpa [LoopRole.isAttributed] using hplain
      rw [hs]
      rw [← nearestLoop?_cons_of_plain (y := ⟨next, s⟩) hplain] at container
      exact ih _ ⟨mem, inner, container, tail⟩
  case nil =>
    rintro around next - _ ⟨mem, _⟩
    cases mem
  case cons =>
    intro s rest ihs ihrest around next hcovers chain hchain
    obtain ⟨hs, hrest⟩ := hcovers.split
    obtain ⟨mem, inner, container, tail⟩ := hchain
    rw [Stmt.innerLevelsList]
    rcases List.mem_append.mp mem with mem | mem
    · exact (ihs around next hs _ ⟨mem, inner, container, tail⟩).trans (Nat.le_max_left _ _)
    · exact (ihrest around _ hrest _ ⟨mem, inner, container, tail⟩).trans (Nat.le_max_right _ _)

/-- **Some chain is as long as there are levels.** -/
theorem exists_chain :
    (∀ (s : Stmt) (around : List NumberedStmt) (next : Nat),
      Covers all around next (s.placed around next) → s.innerLevels ≠ 0 →
        ∃ chain, StartsAmong all (s.placed around next) around chain ∧
          chain.length = s.innerLevels) ∧
    ∀ (stmts : List Stmt) (around : List NumberedStmt) (next : Nat),
      Covers all around next (Stmt.placedList around next stmts) →
        Stmt.innerLevelsList stmts ≠ 0 →
          ∃ chain, StartsAmong all (Stmt.placedList around next stmts) around chain ∧
            chain.length = Stmt.innerLevelsList stmts := by
  apply Stmt.inductionOnInside
  case stmt =>
    intro s ih around next hcovers hne
    have ih := ih (⟨next, s⟩ :: around) (next + 1) hcovers.inside
    rw [innerLevels_eq] at hne ⊢
    cases hs : s.role with
    | plain =>
        rw [hs] at hne
        obtain ⟨_, ⟨mem, inner, container, tail⟩, hlength⟩ := ih hne
        refine ⟨_, ⟨?_, inner, ?_, tail⟩, hlength⟩
        · rw [Stmt.placed_eq_cons]
          exact List.mem_cons_of_mem _ mem
        · rw [container]
          exact nearestLoop?_cons_of_plain (by rw [hs]; rfl) around
    | outer => rw [hs] at hne; exact absurd rfl hne
    | inner =>
        have hattributed : s.role.isAttributed := by rw [hs]; rfl
        obtain ⟨rest, hrest, hlength⟩ : ∃ rest, PlacedStmt.InnerChain all next rest ∧
            rest.length = Stmt.innerLevelsList s.children := by
          by_cases hzero : Stmt.innerLevelsList s.children = 0
          · exact ⟨[], .nil next, hzero.symm⟩
          · obtain ⟨rest, hrest, hlength⟩ := ih hzero
            exact ⟨rest, (innerChain_iff hattributed hcovers rest).mpr (Or.inr hrest), hlength⟩
        refine ⟨⟨⟨next, s⟩, around⟩ :: rest, ⟨?_, hs, rfl, hrest⟩, ?_⟩
        · rw [Stmt.placed_eq_cons]
          exact List.mem_cons_self
        · rw [List.length_cons, hlength]
  case nil => exact fun _ _ _ hne => absurd rfl hne
  case cons =>
    intro s rest ihs ihrest around next hcovers hne
    obtain ⟨hs, hrest⟩ := hcovers.split
    rw [Stmt.innerLevelsList] at hne ⊢
    rw [Stmt.placedList]
    rcases Nat.le_total (Stmt.innerLevelsList rest) s.innerLevels with hle | hle
    · rw [Nat.max_eq_left hle] at hne ⊢
      obtain ⟨chain, hchain, hlength⟩ := ihs around next hs hne
      exact ⟨chain, hchain.mono fun _ hx => List.mem_append_left _ hx, hlength⟩
    · rw [Nat.max_eq_right hle] at hne ⊢
      obtain ⟨chain, hchain, hlength⟩ := ihrest around _ hrest hne
      exact ⟨chain, hchain.mono fun _ hx => List.mem_append_right _ hx, hlength⟩

/-- The longest chain below an outer or inner loop has as many loops as there are
levels inside it. -/
theorem isGreatest_innerChain {s : Stmt} (hs : s.role.isAttributed)
    (h : Covers all around next (s.placed around next)) :
    IsGreatest { n | ∃ chain, PlacedStmt.InnerChain all next chain ∧ chain.length = n }
      (Stmt.innerLevelsList s.children) := by
  constructor
  · by_cases hzero : Stmt.innerLevelsList s.children = 0
    · exact ⟨[], .nil next, hzero.symm⟩
    · obtain ⟨chain, hchain, hlength⟩ := exists_chain.2 s.children _ _ h.inside hzero
      exact ⟨chain, (innerChain_iff hs h chain).mpr (Or.inr hchain), hlength⟩
  · rintro _ ⟨chain, hchain, rfl⟩
    rcases (innerChain_iff hs h chain).mp hchain with rfl | hchain
    · exact Nat.zero_le _
    · exact length_le_innerLevels.2 s.children _ _ h.inside chain hchain

/-- **Depth and levels.**  A longest chain from a loop has as many loops as there are
levels inside it, and one more if it is an inner loop itself. -/
theorem isGreatest_chainLengths {s : Stmt} (hs : s.role.isAttributed)
    (h : Covers all around next (s.placed around next)) :
    IsGreatest (PlacedStmt.chainLengths all ⟨⟨next, s⟩, around⟩)
      (Stmt.innerLevelsList s.children + if s.role = .inner then 1 else 0) := by
  obtain ⟨⟨chain, hchain, hlength⟩, hupper⟩ := isGreatest_innerChain hs h
  cases hrole : s.role with
  | plain => rw [hrole] at hs; cases hs
  | outer =>
      constructor
      · exact ⟨chain, by simpa [PlacedStmt.IsChainFrom, hrole] using hchain, by simpa using hlength⟩
      · rintro _ ⟨other, hother, rfl⟩
        simp only [PlacedStmt.IsChainFrom, hrole] at hother
        exact hupper ⟨other, hother, rfl⟩
  | inner =>
      constructor
      · refine ⟨⟨⟨next, s⟩, around⟩ :: chain, ?_, by simpa using hlength⟩
        simpa [PlacedStmt.IsChainFrom, hrole] using hchain
      · rintro _ ⟨other, hother, rfl⟩
        simp only [PlacedStmt.IsChainFrom, hrole] at hother
        obtain ⟨rest, rfl, hrest⟩ := hother
        exact Nat.succ_le_succ (hupper ⟨rest, hrest, rfl⟩)

/-- The depth of an attributed loop is the number of inner levels below it, and one more if it
is inner itself. -/
theorem depth_eq {s : Stmt} (hs : s.role.isAttributed)
    (h : Covers all around next (s.placed around next)) :
    PlacedStmt.depth all ⟨⟨next, s⟩, around⟩ =
      Stmt.innerLevelsList s.children + if s.role = .inner then 1 else 0 :=
  (isGreatest_chainLengths hs h).csSup_eq

end Nesting

end KernelCheck
