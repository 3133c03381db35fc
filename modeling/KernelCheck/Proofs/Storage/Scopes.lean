import KernelCheck.Proofs.Storage.Judged

/-!
# The loops around a point

A statement that has been gone through leaves the loops around it as they were,
so a scope that is left is left for the same loops.
-/

namespace KernelCheck

namespace Scope

@[simp] theorem frames_bind (s : Scope) (name : Name) (variant : Bool) :
    (s.bind name variant).frames = s.frames := rfl

@[simp] theorem frames_bindAll (s : Scope) (names : List Name) (variant : Bool) :
    (s.bindAll names variant).frames = s.frames := by
  unfold bindAll
  induction names generalizing s with
  | nil => rfl
  | cons name rest ih => rw [List.foldl_cons, ih, frames_bind]

@[simp] theorem frames_setVariant (s : Scope) (name : Name) :
    (s.setVariant name).frames = s.frames := by
  unfold setVariant
  split <;> rfl

@[simp] theorem frames_declare (s : Scope) (ds : List Declarator) :
    (s.declare ds).frames = s.frames := by
  unfold declare
  induction ds generalizing s with
  | nil => rfl
  | cons d rest ih => rw [List.foldl_cons, ih, frames_bind]

mutual

/-- Assignments leave the loops around alone. -/
theorem frames_assigned : ∀ (e : Expr) (s : Scope), (assigned e s).frames = s.frames
  | .assign _ target value _, s => by
      rw [assigned]
      cases target.ident? with
      | none => exact frames_assigned value s
      | some name =>
          dsimp only
          split
          · rw [frames_setVariant, frames_assigned value s]
          · exact frames_assigned value s
  | .comma parts _, s => frames_assignedList parts s
  | .ident .., _ | .int .., _ | .float .., _ | .char .., _ | .string .., _ | .unary .., _
  | .binary .., _ | .call .., _ | .index .., _ | .member .., _ | .cast .., _ | .ternary .., _
  | .sizeOfType .., _ => rfl

/-- The same for several expressions. -/
theorem frames_assignedList : ∀ (es : List Expr) (s : Scope),
    (assignedList es s).frames = s.frames
  | [], _ => rfl
  | e :: rest, s => by
      rw [assignedList, frames_assignedList rest, frames_assigned e]

end

/-- Leaving a scope that was entered through one loop, or none, leaves the loops
around it. -/
theorem frames_leave {s outer : Scope} (extra : List Frame)
    (h : s.frames = extra ++ outer.frames) : (s.leave outer).frames = outer.frames := by
  simp [leave, h]

/-- Leaving two scopes one after the other cuts the bindings as leaving both at
once. -/
theorem bindings_leave_leave {t around s : Scope}
    (haround : s.bindings.length ≤ around.bindings.length)
    (hinside : around.bindings.length ≤ t.bindings.length) :
    ((t.leave around).leave s).bindings = (t.leave s).bindings := by
  simp only [leave, List.length_drop, List.drop_drop]
  congr 1
  omega

end Scope

namespace Storage

@[simp] theorem frames_aroundLoop (init : Option ForInit) (s : Scope) :
    (aroundLoop init s).frames = s.frames := by
  unfold aroundLoop
  split
  · exact Scope.frames_declare ..
  · rfl

@[simp] theorem frames_insideLoop (header : LoopHeader) (around : Scope) :
    (insideLoop header around).frames = ⟨header.role, header.span⟩ :: around.frames := by
  rw [insideLoop, Scope.frames_bindAll]
  rfl

mutual

/-- **The loops around a statement** are the same behind it as in front of it. -/
theorem frames_after : ∀ (st : Stmt) (s : Scope), (after st s).frames = s.frames
  | .decl d _, s => Scope.frames_declare s d.declarators
  | .expr e _, s => Scope.frames_assigned e s
  | .block stmts _ _, s => by
      have hstmts := frames_afterList stmts s
      exact Scope.frames_leave [] hstmts
  | .forLoop header body _, s => by
      have hbody := frames_after body (insideLoop header (aroundLoop header.init s))
      rw [frames_insideLoop] at hbody
      have haround : ((after body (insideLoop header (aroundLoop header.init s))).leave
          (aroundLoop header.init s)).frames = (aroundLoop header.init s).frames :=
        Scope.frames_leave [⟨header.role, header.span⟩] hbody
      rw [frames_aroundLoop] at haround
      exact Scope.frames_leave [] haround
  | .whileLoop _ body span, s | .doWhile body _ span, s => by
      have hbody := frames_after body (s.enter .plain span)
      exact Scope.frames_leave [⟨.plain, span⟩] hbody
  | .ifThen _ a _, s | .switch _ a _, s => by
      have ha := frames_after a s
      exact Scope.frames_leave [] ha
  | .ifElse _ a b _, s => by
      have ha : ((after a s).leave s).frames = s.frames :=
        Scope.frames_leave [] (frames_after a s)
      have hb := frames_after b ((after a s).leave s)
      exact Scope.frames_leave [] (hb.trans ha)
  | .caseLabel .., _ | .breakJump .., _ | .continueJump .., _ | .returnJump .., _
  | .empty .., _ => rfl

/-- The same for a list of statements. -/
theorem frames_afterList : ∀ (stmts : List Stmt) (s : Scope),
    (afterList stmts s).frames = s.frames
  | [], _ => rfl
  | st :: rest, s => by
      rw [afterList, frames_afterList rest, frames_after st]

end

/-- Behind a loop's body the loops around are those from before. -/
theorem frames_leave_insideLoop (header : LoopHeader) (body : Stmt) (around : Scope) :
    ((after body (insideLoop header around)).leave around).frames = around.frames := by
  have hbody := frames_after body (insideLoop header around)
  rw [frames_insideLoop] at hbody
  exact Scope.frames_leave [⟨header.role, header.span⟩] hbody

end Storage

end KernelCheck
