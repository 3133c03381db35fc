import KernelCheck.Proofs.Families
import KernelCheck.Proofs.Places

/-!
# Jumps that leave the body of a loop

The rules on jumps carry the loops and switches around a statement along.  The same
problems can be read off in two other ways: from each jump outwards, to the
statement that it is bound to, and from each loop inwards, to the jumps that its
body lets out.

* `Jumps.problems_eq` — the problem with a jump depends on the statements around it
  only, and the targets that are carried along are those among them.
* `Jumps.problems_eq_nil_iff` — a statement has no problem if what it lets out is
  free where it stands and no outer or inner loop in it lets anything out.
* `escapes_listed` — both readings for a kernel.
-/

namespace KernelCheck

/-- The jumps that are bound to a loop or a switch around them. -/
inductive Jump where
  | breaks | continues
  deriving DecidableEq

/-- The statements that a jump in them is bound to: a `break` ends the innermost loop or switch,
and a `continue` goes on with the innermost loop. -/
def Jump.bindsTo (j : Jump) : Stmt → Bool
  | .forLoop .. | .whileLoop .. | .doWhile .. => true
  | .switch .. => j == .breaks
  | _ => false

namespace PlacedStmt

/-- The outer or inner loop that a jump at a place is bound to, if it is bound to one. -/
def boundLoop? (x : PlacedStmt) (j : Jump) : Option LoopHeader :=
  (x.around.find? (j.bindsTo ·.stmt)).bind (·.stmt.gridLoop?)

/-- No jump may be bound to an outer or inner loop. -/
def jumpProblem? (x : PlacedStmt) : Option Problem :=
  match x.stmt with
  | .breakJump span => (x.boundLoop? .breaks).map fun h => .illegalBreak span h.span h.role
  | .continueJump span => (x.boundLoop? .continues).map fun h => .illegalContinue span h.span h.role
  | _ => none

end PlacedStmt

namespace Stmt

mutual

/-- A statement can complete with a jump.  Blocks and branches pass jumps on, a switch passes on
a `continue` only, and a loop passes on none. -/
def completesWith (j : Jump) : Stmt → Bool
  | breakJump _ => j == .breaks
  | continueJump _ => j == .continues
  | block stmts _ _ => someCompletesWith j stmts
  | ifThen _ a _ => a.completesWith j
  | ifElse _ a b _ => a.completesWith j || b.completesWith j
  | switch _ body _ => j == .continues && body.completesWith j
  | forLoop .. | whileLoop .. | doWhile .. => false
  | expr .. | decl .. | caseLabel .. | returnJump .. | empty .. => false

/-- One of several statements can complete with a jump. -/
def someCompletesWith (j : Jump) : List Stmt → Bool
  | [] => false
  | s :: rest => s.completesWith j || someCompletesWith j rest

end

/-- The body of an outer or inner loop can complete with no jump. -/
def KeepsJumps : Stmt → Prop
  | forLoop header body _ => header.role.isAttributed → ∀ j, body.completesWith j = false
  | _ => True

end Stmt

namespace Jumps

/-! ## From a jump outwards -/

/-- What a statement is to the jumps inside it. -/
def target? : Stmt → Option JumpTarget
  | .forLoop header _ _ => some (.loop header.role header.span)
  | .whileLoop _ _ span | .doWhile _ _ span => some (.loop .plain span)
  | .switch .. => some .switch
  | _ => none

/-- The targets among the statements around a place. -/
def targetsOf (around : List NumberedStmt) : List JumpTarget := around.filterMap (target? ·.stmt)

/-- The loop that a jump inside these targets is bound to. -/
def loopOf? : Jump → List JumpTarget → Option (LoopRole × Span)
  | .breaks => breakLoop?
  | .continues => continueLoop?

/-- The attributed loop that a jump would leave is the innermost statement around it that takes
the jump, if that is such a loop. -/
theorem loopOf?_targetsOf (j : Jump) (around : List NumberedStmt) :
    (loopOf? j (targetsOf around)).filter (·.1.isAttributed) =
      ((around.find? (j.bindsTo ·.stmt)).bind (·.stmt.gridLoop?)).map fun h =>
        (h.role, h.span) := by
  induction around with
  | nil => cases j <;> rfl
  | cons y rest ih =>
      obtain ⟨number, s⟩ := y
      cases s with
      | forLoop header body span =>
          cases hr : header.role.isAttributed <;> cases j <;>
            simp [targetsOf, target?, loopOf?, breakLoop?, continueLoop?, Jump.bindsTo,
              Stmt.gridLoop?, Stmt.loop?, Option.filter, hr]
      | whileLoop | doWhile => cases j <;> rfl
      | switch =>
          cases j with
          | breaks => rfl
          | continues => exact ih
      | _ => exact ih

/-- A break is judged by the statements around it. -/
theorem breakProblem?_targetsOf (around : List NumberedStmt) (number : Nat) (span : Span) :
    breakProblem? (targetsOf around) span =
      PlacedStmt.jumpProblem? ⟨⟨number, .breakJump span⟩, around⟩ := by
  have h := loopOf?_targetsOf .breaks around
  rw [loopOf?] at h
  rw [breakProblem?, h, Option.map_map]
  rfl

/-- A continue is judged by the statements around it. -/
theorem continueProblem?_targetsOf (around : List NumberedStmt) (number : Nat) (span : Span) :
    continueProblem? (targetsOf around) span =
      PlacedStmt.jumpProblem? ⟨⟨number, .continueJump span⟩, around⟩ := by
  have h := loopOf?_targetsOf .continues around
  rw [loopOf?] at h
  rw [continueProblem?, h, Option.map_map]
  rfl

/-- A statement adds its own problem to those of what is inside it. -/
theorem problems_eq_append (around : List NumberedStmt) (number : Nat) (s : Stmt) :
    problems (targetsOf around) s =
      (PlacedStmt.jumpProblem? ⟨⟨number, s⟩, around⟩).toList ++
        problemsList (targetsOf (⟨number, s⟩ :: around)) s.children := by
  cases s with
  | breakJump span =>
      rw [problems, breakProblem?_targetsOf around number span]
      exact (List.append_nil _).symm
  | continueJump span =>
      rw [problems, continueProblem?_targetsOf around number span]
      exact (List.append_nil _).symm
  | _ => simp [problems, problemsList, PlacedStmt.jumpProblem?, Stmt.children, targetsOf, target?]

/-- **The problems with jumps** are those of the statements, one by one. -/
theorem problems_eq :
    (∀ (s : Stmt) (around : List NumberedStmt) (next : Nat),
      problems (targetsOf around) s =
        (s.placed around next).filterMap PlacedStmt.jumpProblem?) ∧
    ∀ (stmts : List Stmt) (around : List NumberedStmt) (next : Nat),
      problemsList (targetsOf around) stmts =
        (Stmt.placedList around next stmts).filterMap PlacedStmt.jumpProblem? := by
  apply Stmt.inductionOnInside
  case stmt =>
    intro s ih around next
    rw [problems_eq_append around next, Stmt.placed_eq_cons, List.filterMap_cons,
      ih (⟨next, s⟩ :: around) (next + 1)]
    cases PlacedStmt.jumpProblem? ⟨⟨next, s⟩, around⟩ <;> rfl
  case nil => intros; rfl
  case cons =>
    intro s rest ihs ihrest around next
    rw [problemsList, Stmt.placedList, List.filterMap_append, ihs around next, ihrest around]

/-! ## From a loop inwards -/

/-- A jump inside these targets is not bound to an outer or inner loop. -/
def IsFree (targets : List JumpTarget) (j : Jump) : Prop :=
  (loopOf? j targets).filter (·.1.isAttributed) = none

/-- With nothing around it a jump is free. -/
theorem isFree_nil (j : Jump) : IsFree [] j := by
  cases j <;> rfl

/-- In a loop a jump is free if the loop has no attribute. -/
theorem isFree_loop_iff (role : LoopRole) (span : Span) (targets : List JumpTarget) (j : Jump) :
    IsFree (.loop role span :: targets) j ↔ role.isAttributed = false := by
  cases j <;> simp [IsFree, loopOf?, breakLoop?, continueLoop?, Option.filter]

/-- In a switch a break is free, and a continue if it is free around the switch. -/
theorem isFree_switch_iff (targets : List JumpTarget) (j : Jump) :
    IsFree (.switch :: targets) j ↔ (j = .continues → IsFree targets j) := by
  cases j <;> simp [IsFree, loopOf?, breakLoop?, continueLoop?]

/-- A loop keeps its jumps if it has no attribute, or if none leave its body. -/
theorem keepsJumps_forLoop_iff (header : LoopHeader) (body : Stmt) (span : Span) :
    (Stmt.forLoop header body span).KeepsJumps ↔
      ∀ j, body.completesWith j → header.role.isAttributed = false := by
  change (header.role.isAttributed → ∀ j, body.completesWith j = false) ↔ _
  cases hr : header.role.isAttributed <;> simp

/-- **A statement has no problem with its jumps** if those that it lets out are free
where it stands and no outer or inner loop in it lets any out. -/
theorem problems_eq_nil_iff :
    (∀ (s : Stmt) (targets : List JumpTarget) (around : List NumberedStmt) (next : Nat),
      problems targets s = [] ↔
        (∀ j, s.completesWith j → IsFree targets j) ∧
          ∀ x ∈ s.placed around next, x.stmt.KeepsJumps) ∧
    ∀ (stmts : List Stmt) (targets : List JumpTarget) (around : List NumberedStmt) (next : Nat),
      problemsList targets stmts = [] ↔
        (∀ j, Stmt.someCompletesWith j stmts → IsFree targets j) ∧
          ∀ x ∈ Stmt.placedList around next stmts, x.stmt.KeepsJumps := by
  apply Stmt.inductionOnInside
  case stmt =>
    intro s ih targets around next
    have ih := fun targets => ih targets (⟨next, s⟩ :: around) (next + 1)
    rw [Stmt.placed_eq_cons]
    simp only [List.forall_mem_cons]
    cases s with
    | breakJump span =>
        simp [problems, breakProblem?, Stmt.completesWith, Stmt.children, Stmt.placedList,
          Stmt.KeepsJumps, IsFree, loopOf?]
    | continueJump span =>
        simp [problems, continueProblem?, Stmt.completesWith, Stmt.children, Stmt.placedList,
          Stmt.KeepsJumps, IsFree, loopOf?]
    | forLoop header body span =>
        have ih := ih (.loop header.role header.span :: targets)
        simp only [isFree_loop_iff] at ih
        rw [keepsJumps_forLoop_iff]
        simpa [problems, problemsList, Stmt.completesWith, Stmt.someCompletesWith, Stmt.children]
          using ih
    | whileLoop _ body span | doWhile body _ span =>
        have ih := ih (.loop .plain span :: targets)
        simp only [isFree_loop_iff] at ih
        simpa [problems, problemsList, Stmt.completesWith, Stmt.children, LoopRole.isAttributed,
          Stmt.KeepsJumps] using ih
    | switch _ body span =>
        have ih := ih (.switch :: targets)
        have hcontinues : (∀ j, body.completesWith j → j = .continues → IsFree targets j) ↔
            (body.completesWith .continues → IsFree targets .continues) := by
          constructor
          · exact fun h hj => h .continues hj rfl
          · rintro h _ hj rfl
            exact h hj
        simp only [isFree_switch_iff, Stmt.someCompletesWith, Stmt.children, Bool.or_false,
          hcontinues] at ih
        simpa [problems, problemsList, Stmt.completesWith, Stmt.someCompletesWith, Stmt.children,
          Stmt.KeepsJumps] using ih
    | _ =>
        simpa [problems, problemsList, Stmt.completesWith, Stmt.someCompletesWith, Stmt.children,
          Stmt.KeepsJumps] using ih targets
  case nil => simp [problemsList, Stmt.someCompletesWith, Stmt.placedList]
  case cons =>
    intro s rest ihs ihrest targets around next
    rw [problemsList, List.append_eq_nil_iff, ihs targets around next, ihrest targets around,
      Stmt.placedList]
    simp only [Stmt.someCompletesWith, Bool.or_eq_true, or_imp, forall_and, List.forall_mem_append]
    constructor
    · rintro ⟨⟨h₁, h₂⟩, h₃, h₄⟩
      exact ⟨⟨h₁, h₃⟩, h₂, h₄⟩
    · rintro ⟨⟨h₁, h₃⟩, h₂, h₄⟩
      exact ⟨⟨h₁, h₂⟩, h₃, h₄⟩

end Jumps

/-- **Jumps, outwards and inwards.**  If all problems are wanted, the rules on jumps list,
in source order, each `break` whose innermost loop or switch is an outer or inner
loop, and each `continue` whose innermost loop is one.  Whether one problem is wanted
or all are, they find nothing exactly if no outer or inner loop has a body that
can complete with a `break` or a `continue`. -/
theorem escapes_listed (s : Subject) :
    (Stage.jumps s (.empty .all)).problems = s.kernel.placed.filterMap (·.jumpProblem?) ∧
      ∀ extent, (Stage.jumps s (.empty extent)).problems = [] ↔
        ∀ x ∈ s.kernel.placed, x.stmt.KeepsJumps := by
  constructor
  · rw [(Stage.jumps_finds s).all_eq]
    exact Jumps.problems_eq.2 s.kernel.body.stmts [] 0
  · intro extent
    rw [(Stage.jumps_finds s).eq_nil_iff, Subject.jumpProblems,
      Jumps.problems_eq_nil_iff.2 s.kernel.body.stmts [] [] 0]
    exact and_iff_right fun j _ => Jumps.isFree_nil j

end KernelCheck
