import KernelCheck.Rule.Role

/-!
# The statements of a function and where they stand

What the rules say about a statement often depends on the statements around it.
Here every statement of a function is listed in source order, together with the
statements around it.  Statements at different places may be equal, so each
carries its number in that order, and two statements are the same one if they
have the same number.

* `Function.placed` — all statements of a function.
* `Stmt.inductionOnInside` — what holds of a statement whenever it holds of those
  directly inside it holds of every statement.
* `Function.map_number_placed` — the numbers are 0, 1, 2 and so on.
* `Stmt.standsIn_of_mem` — what stands around a statement is what stood around the
  whole, and further statements of the whole.
* `Function.loops_eq_filterMap` — the loops of a function are those of its statements that
  are loops.
-/

namespace KernelCheck

/-- A statement of a function with its number in source order. -/
structure NumberedStmt where
  number : Nat
  stmt : Stmt

/-- A statement of a function with the statements around it, the innermost first. -/
structure PlacedStmt extends NumberedStmt where
  around : List NumberedStmt

namespace Stmt

/-- The header of a `for` loop. -/
def loop? : Stmt → Option LoopHeader
  | forLoop header _ _ => some header
  | _ => none

/-- The header of an outer or inner loop. -/
def gridLoop? (s : Stmt) : Option LoopHeader := s.loop?.filter (·.role.isAttributed)

/-- The role of a `for` loop; no other statement has one. -/
def role (s : Stmt) : LoopRole := (s.loop?.map (·.role)).getD .plain

/-- The role of a loop is that of its header. -/
@[simp] theorem role_forLoop (header : LoopHeader) (body : Stmt) (span : Span) :
    (forLoop header body span).role = header.role := rfl

/-- The statements directly inside a statement. -/
def children : Stmt → List Stmt
  | expr .. | decl .. | caseLabel .. | breakJump .. | continueJump .. | returnJump .. | empty .. =>
    []
  | block stmts _ _ => stmts
  | ifThen _ a _ => [a]
  | ifElse _ a b _ => [a, b]
  | forLoop _ body _ | whileLoop _ body _ | doWhile body _ _ | switch _ body _ => [body]

mutual

/-- A statement and those inside it in source order, where `around` stands around
it and the next number to give is `next`. -/
def placed (around : List NumberedStmt) (next : Nat) (s : Stmt) : List PlacedStmt :=
  ⟨⟨next, s⟩, around⟩ ::
    match s with
    | expr .. | decl .. | caseLabel .. | breakJump .. | continueJump .. | returnJump ..
    | empty .. => []
    | block stmts _ _ => placedList (⟨next, s⟩ :: around) (next + 1) stmts
    | ifElse _ a b _ =>
      let first := a.placed (⟨next, s⟩ :: around) (next + 1)
      first ++ b.placed (⟨next, s⟩ :: around) (next + 1 + first.length)
    | ifThen _ a _ | forLoop _ a _ | whileLoop _ a _ | doWhile a _ _ | switch _ a _ =>
      a.placed (⟨next, s⟩ :: around) (next + 1)

/-- The same for several statements that stand side by side. -/
def placedList (around : List NumberedStmt) (next : Nat) : List Stmt → List PlacedStmt
  | [] => []
  | s :: rest =>
    let first := s.placed around next
    first ++ placedList around (next + first.length) rest

end

end Stmt

/-- The statements of a function in source order, each before those inside it. -/
def Function.placed (f : Function) : List PlacedStmt := Stmt.placedList [] 0 f.body.stmts

namespace Stmt

/-- A statement is placed first, and then its children inside it. -/
theorem placed_eq_cons (around : List NumberedStmt) (next : Nat) (s : Stmt) :
    s.placed around next =
      ⟨⟨next, s⟩, around⟩ :: placedList (⟨next, s⟩ :: around) (next + 1) s.children := by
  cases s <;> simp [placed, placedList, children]

mutual

/-- **Induction on statements** by their children: from the children of a statement to the
statement, and from one statement to several. -/
theorem of_children {P : Stmt → Prop} {Q : List Stmt → Prop} (stmt : ∀ s, Q s.children → P s)
    (nil : Q []) (cons : ∀ s rest, P s → Q rest → Q (s :: rest)) : ∀ s : Stmt, P s
  | .expr .. | .decl .. | .caseLabel .. | .breakJump .. | .continueJump .. | .returnJump ..
  | .empty .. => stmt _ nil
  | .block stmts _ _ => stmt _ (ofList_children stmt nil cons stmts)
  | .ifElse _ a b _ =>
      stmt _ (cons a [b] (of_children stmt nil cons a)
        (cons b [] (of_children stmt nil cons b) nil))
  | .ifThen _ a _ | .forLoop _ a _ | .whileLoop _ a _ | .doWhile a _ _ | .switch _ a _ =>
      stmt _ (cons a [] (of_children stmt nil cons a) nil)

/-- The same for several statements. -/
theorem ofList_children {P : Stmt → Prop} {Q : List Stmt → Prop} (stmt : ∀ s, Q s.children → P s)
    (nil : Q []) (cons : ∀ s rest, P s → Q rest → Q (s :: rest)) : ∀ stmts : List Stmt, Q stmts
  | [] => nil
  | s :: rest =>
      cons s rest (of_children stmt nil cons s) (ofList_children stmt nil cons rest)

end

/-- **Induction on what stands inside.**  What each statement takes over from those
directly inside it holds of every statement, and of every list of statements. -/
theorem inductionOnInside {P : Stmt → Prop} {Q : List Stmt → Prop}
    (stmt : ∀ s, Q s.children → P s) (nil : Q [])
    (cons : ∀ s rest, P s → Q rest → Q (s :: rest)) : (∀ s, P s) ∧ ∀ stmts, Q stmts :=
  ⟨of_children stmt nil cons, ofList_children stmt nil cons⟩

end Stmt

/-! ## Numbers and surroundings -/

/-- `x` has one of the numbers from `first` on and below `stop`, and it stands inside
`around`: whatever else stands around it is numbered from `first` on, too. -/
structure PlacedStmt.StandsIn (around : List NumberedStmt) (first stop : Nat) (x : PlacedStmt) :
    Prop where
  first_le : first ≤ x.number
  lt_stop : x.number < stop
  inside : ∃ between, x.around = between ++ around ∧
    ∀ y ∈ between, first ≤ y.number ∧ y.number < stop

namespace PlacedStmt.StandsIn

variable {around : List NumberedStmt} {first stop : Nat} {x : PlacedStmt}

/-- What stands in a part of the numbers stands in more of them. -/
theorem mono {first' stop' : Nat} (h : x.StandsIn around first stop) (hfirst : first' ≤ first)
    (hstop : stop ≤ stop') : x.StandsIn around first' stop' := by
  obtain ⟨between, heq, hbetween⟩ := h.inside
  have hx₁ := h.first_le
  have hx₂ := h.lt_stop
  refine ⟨by omega, by omega, between, heq, ?_⟩
  intro y hy
  obtain ⟨hy₁, hy₂⟩ := hbetween y hy
  omega

/-- What stands inside a statement stands inside everything around that statement. -/
theorem leave {y : NumberedStmt} (h : x.StandsIn (y :: around) (y.number + 1) stop) :
    x.StandsIn around y.number stop := by
  obtain ⟨between, heq, hbetween⟩ := h.inside
  have hx₁ := h.first_le
  have hx₂ := h.lt_stop
  refine ⟨by omega, hx₂, between ++ [y], by simp [heq], ?_⟩
  intro z hz
  rcases List.mem_append.mp hz with hz | hz
  · obtain ⟨hz₁, hz₂⟩ := hbetween z hz
    omega
  · obtain rfl := List.mem_singleton.mp hz
    omega

end PlacedStmt.StandsIn

namespace Stmt

/-- Statements are numbered in the order in which they are placed. -/
theorem map_number_placed :
    (∀ (s : Stmt) (around : List NumberedStmt) (next : Nat),
      (s.placed around next).map (·.number) =
        List.range' next (s.placed around next).length) ∧
    ∀ (stmts : List Stmt) (around : List NumberedStmt) (next : Nat),
      (placedList around next stmts).map (·.number) =
        List.range' next (placedList around next stmts).length := by
  apply inductionOnInside
  case stmt =>
    intro s ih around next
    rw [placed_eq_cons, List.map_cons, List.length_cons, List.range'_succ, ih]
  case nil => intros; rfl
  case cons =>
    intro s rest ihs ihrest around next
    rw [placedList, List.map_append, List.length_append, ihs, ihrest, List.range'_append_1]

/-- A placed statement stands inside what is around it, and has a number from the range of the
whole. -/
theorem standsIn_of_mem :
    (∀ (s : Stmt) (around : List NumberedStmt) (next : Nat), ∀ x ∈ s.placed around next,
      x.StandsIn around next (next + (s.placed around next).length)) ∧
    ∀ (stmts : List Stmt) (around : List NumberedStmt) (next : Nat),
      ∀ x ∈ placedList around next stmts,
        x.StandsIn around next (next + (placedList around next stmts).length) := by
  apply inductionOnInside
  case stmt =>
    intro s ih around next x hx
    rw [placed_eq_cons] at hx ⊢
    rw [List.length_cons]
    rcases List.mem_cons.mp hx with rfl | hx
    · exact ⟨Nat.le_refl next, Nat.lt_add_of_pos_right (Nat.succ_pos _), [], rfl, by simp⟩
    · exact ((ih _ _ x hx).mono (Nat.le_refl _) (by omega)).leave
  case nil =>
    intro around next x hx
    cases hx
  case cons =>
    intro s rest ihs ihrest around next x hx
    rw [placedList, List.length_append]
    rcases List.mem_append.mp hx with hx | hx
    · exact (ihs around next x hx).mono (Nat.le_refl next) (by omega)
    · exact (ihrest around _ x hx).mono (by omega) (by omega)

/-! ## Loops -/

/-- The loops of a statement: itself, and those of its children. -/
theorem loops_eq_append (s : Stmt) : s.loops = s.loop?.toList ++ loopsList s.children := by
  cases s <;> simp [loops, loopsList, loop?, children]

/-- The loops of a statement are the loops among what is placed. -/
theorem loops_eq_filterMap :
    (∀ (s : Stmt) (around : List NumberedStmt) (next : Nat),
      s.loops = (s.placed around next).filterMap (·.stmt.loop?)) ∧
    ∀ (stmts : List Stmt) (around : List NumberedStmt) (next : Nat),
      loopsList stmts = (placedList around next stmts).filterMap (·.stmt.loop?) := by
  apply inductionOnInside
  case stmt =>
    intro s ih around next
    rw [loops_eq_append, placed_eq_cons, List.filterMap_cons, ih (⟨next, s⟩ :: around) (next + 1)]
    cases s.loop? <;> rfl
  case nil => intros; rfl
  case cons =>
    intro s rest ihs ihrest around next
    rw [loopsList, placedList, List.filterMap_append, ihs around next, ihrest around]

end Stmt

/-- Every statement of a function has its own number. -/
theorem Function.map_number_placed (f : Function) :
    f.placed.map (·.number) = List.range f.placed.length := by
  rw [List.range_eq_range']
  exact Stmt.map_number_placed.2 f.body.stmts [] 0

/-- The loops of a function are those of its statements that are loops. -/
theorem Function.loops_eq_filterMap (f : Function) :
    f.loops = f.placed.filterMap (·.stmt.loop?) :=
  Stmt.loops_eq_filterMap.2 f.body.stmts [] 0

end KernelCheck
