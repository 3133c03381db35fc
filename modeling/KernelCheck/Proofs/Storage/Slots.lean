import KernelCheck.Proofs.Places
import KernelCheck.Proofs.Storage.Splitting

/-!
# Slots for one statement

A loop may be the body of another loop, or a branch, without braces around it.  Then it stands
at no place of a block, and it cannot be taken out; but another statement can take its place.

* `BlockSlot.fill` — the statements around a slot, with a statement in it.
* `BlockSlot.exists_of_mem_placed` — every statement of a function stands in a slot.
* `BlockSlot.replaced` — what is found around a slot depends on the statement in it only through
  the scope behind it.
-/

namespace KernelCheck

mutual

/-- A slot for a statement, in place of a whole statement or of one inside it. -/
inductive Slot where
  | here
  | block (slot : BlockSlot) (blockSpan span : Span)
  | ifThen (condition : Expr) (slot : Slot) (span : Span)
  | thenBranch (condition : Expr) (slot : Slot) (elseBranch : Stmt) (span : Span)
  | elseBranch (condition : Expr) (thenBranch : Stmt) (slot : Slot) (span : Span)
  | forLoop (header : LoopHeader) (slot : Slot) (span : Span)
  | whileLoop (condition : Expr) (slot : Slot) (span : Span)
  | doWhile (slot : Slot) (condition : Expr) (span : Span)
  | switch (scrutinee : Expr) (slot : Slot) (span : Span)

/-- A slot for a statement among several statements, or inside one of them. -/
inductive BlockSlot where
  | among (before : List Stmt) (slot : Slot) (behind : List Stmt)

end

mutual

/-- The whole statement, with a statement in the slot. -/
def Slot.fill : Slot → Stmt → Stmt
  | .here, st => st
  | .block slot blockSpan span, st => .block (slot.fill st) blockSpan span
  | .ifThen c slot span, st => .ifThen c (slot.fill st) span
  | .thenBranch c slot b span, st => .ifElse c (slot.fill st) b span
  | .elseBranch c a slot span, st => .ifElse c a (slot.fill st) span
  | .forLoop header slot span, st => .forLoop header (slot.fill st) span
  | .whileLoop c slot span, st => .whileLoop c (slot.fill st) span
  | .doWhile slot c span, st => .doWhile (slot.fill st) c span
  | .switch e slot span, st => .switch e (slot.fill st) span

/-- All the statements, with a statement in the slot. -/
def BlockSlot.fill : BlockSlot → Stmt → List Stmt
  | .among before slot behind, st => before ++ slot.fill st :: behind

end

open Storage in
mutual

/-- The scope in front of the slot, from the scope in front of the whole statement. -/
def Slot.scope : Slot → Scope → Scope
  | .here, s => s
  | .block slot _ _, s => slot.scope s
  | .ifThen _ slot _, s | .thenBranch _ slot _ _, s | .switch _ slot _, s => slot.scope s
  | .elseBranch _ a slot _, s => slot.scope ((after a s).leave s)
  | .forLoop header slot _, s => slot.scope (insideLoop header (aroundLoop header.init s))
  | .whileLoop _ slot span, s | .doWhile slot _ span, s => slot.scope (s.enter .plain span)

/-- The scope in front of the slot, from the scope in front of all the statements. -/
def BlockSlot.scope : BlockSlot → Scope → Scope
  | .among before slot _, s => slot.scope (afterList before s)

end

/-! ## Every statement stands in a slot -/

/-- A slot in a statement directly inside another one is a slot in that one. -/
theorem Slot.exists_of_mem_children {s st : Stmt} (slot : Slot) (h : slot.fill st ∈ s.children) :
    ∃ outer : Slot, s = outer.fill st := by
  cases s with
  | block stmts blockSpan span =>
      obtain ⟨before, behind, rfl⟩ := List.append_of_mem h
      exact ⟨.block (.among before slot behind) blockSpan span, rfl⟩
  | ifElse c a b span =>
      rcases List.mem_cons.mp h with rfl | h
      · exact ⟨.thenBranch c slot b span, rfl⟩
      · obtain rfl := List.mem_singleton.mp h
        exact ⟨.elseBranch c a slot span, rfl⟩
  | ifThen c a span =>
      obtain rfl := List.mem_singleton.mp h
      exact ⟨.ifThen c slot span, rfl⟩
  | forLoop header body span =>
      obtain rfl := List.mem_singleton.mp h
      exact ⟨.forLoop header slot span, rfl⟩
  | whileLoop c body span =>
      obtain rfl := List.mem_singleton.mp h
      exact ⟨.whileLoop c slot span, rfl⟩
  | doWhile body c span =>
      obtain rfl := List.mem_singleton.mp h
      exact ⟨.doWhile slot c span, rfl⟩
  | switch e body span =>
      obtain rfl := List.mem_singleton.mp h
      exact ⟨.switch e slot span, rfl⟩
  | _ => cases h

/-- Every statement of a numbered tree stands in a slot of it. -/
theorem Slot.exists_of_mem_placed :
    (∀ (s : Stmt) (around : List NumberedStmt) (next : Nat), ∀ x ∈ s.placed around next,
      ∃ slot : Slot, s = slot.fill x.stmt) ∧
    ∀ (stmts : List Stmt) (around : List NumberedStmt) (next : Nat),
      ∀ x ∈ Stmt.placedList around next stmts, ∃ slot : Slot, slot.fill x.stmt ∈ stmts := by
  apply Stmt.inductionOnInside
  case stmt =>
    intro s ih around next x hx
    rw [Stmt.placed_eq_cons] at hx
    rcases List.mem_cons.mp hx with rfl | hx
    · exact ⟨.here, rfl⟩
    · obtain ⟨slot, hslot⟩ := ih _ _ x hx
      exact slot.exists_of_mem_children hslot
  case nil =>
    intro around next x hx
    cases hx
  case cons =>
    intro s rest ihs ihrest around next x hx
    rw [Stmt.placedList] at hx
    rcases List.mem_append.mp hx with hx | hx
    · obtain ⟨slot, rfl⟩ := ihs around next x hx
      exact ⟨slot, List.mem_cons_self⟩
    · obtain ⟨slot, hslot⟩ := ihrest around _ x hx
      exact ⟨slot, List.mem_cons_of_mem s hslot⟩

/-- Every statement of a function stands in a slot among its statements. -/
theorem BlockSlot.exists_of_mem_placed {f : Function} {x : PlacedStmt} (hx : x ∈ f.placed) :
    ∃ slot : BlockSlot, f.body.stmts = slot.fill x.stmt := by
  obtain ⟨slot, hslot⟩ := Slot.exists_of_mem_placed.2 f.body.stmts [] 0 x hx
  obtain ⟨before, behind, hstmts⟩ := List.append_of_mem hslot
  exact ⟨.among before slot behind, hstmts⟩

/-! ## Another statement in a slot -/

open Storage in
mutual

/-- **Only the scope behind a slot counts.**  If two statements come to the same scope in a
slot, then all that is judged elsewhere is judged alike. -/
theorem Slot.replaced : ∀ (slot : Slot) {st st' : Stmt} (s : Scope),
    after st (slot.scope s) = after st' (slot.scope s) →
      Replaced (slot.scope s) [st] [st'] (after (slot.fill st) s) (after (slot.fill st') s)
        (judged (slot.fill st) s) (judged (slot.fill st') s)
  | .here, st, st', s, h => ⟨h, [], [], by simp [judgedList, Slot.fill, Slot.scope],
      by simp [judgedList, Slot.fill, Slot.scope]⟩
  | .block slot _ _, _, _, s, h => (slot.replaced s h).leave (·.leave s)
  | .ifThen _ slot _, _, _, s, h => (slot.replaced s h).leave (·.leave s)
  | .switch _ slot _, _, _, s, h => (slot.replaced s h).leave (·.leave s)
  | .thenBranch _ slot b _, st, st', s, h => by
      have hbranch := (slot.replaced s h).leave (·.leave s)
      have hrest := hbranch.extend [] (fun t => (after b t).leave s) (judged b)
      simpa only [Slot.fill, Slot.scope, after, judged, List.nil_append] using hrest
  | .elseBranch _ a slot _, st, st', s, h => by
      have hbranch := slot.replaced ((after a s).leave s) h
      have hboth := hbranch.extend (judged a s) (·.leave s) fun _ => []
      simpa only [Slot.fill, Slot.scope, after, judged, List.append_nil] using hboth
  | .forLoop header slot _, st, st', s, h => by
      have hbody := slot.replaced (insideLoop header (aroundLoop header.init s)) h
      have hloop := hbody.extend (judgedInit header.init s)
        (fun t => (t.leave (aroundLoop header.init s)).leave s) fun _ => []
      simpa only [Slot.fill, Slot.scope, after, judged, List.append_nil] using hloop
  | .whileLoop _ slot span, _, _, s, h => (slot.replaced (s.enter .plain span) h).leave (·.leave s)
  | .doWhile slot _ span, _, _, s, h => (slot.replaced (s.enter .plain span) h).leave (·.leave s)

/-- The same for a slot among several statements. -/
theorem BlockSlot.replaced : ∀ (slot : BlockSlot) {st st' : Stmt} (s : Scope),
    after st (slot.scope s) = after st' (slot.scope s) →
      Replaced (slot.scope s) [st] [st'] (afterList (slot.fill st) s) (afterList (slot.fill st') s)
        (judgedList (slot.fill st) s) (judgedList (slot.fill st') s)
  | .among before slot behind, st, st', s, h => by
      have hslot := slot.replaced (afterList before s) h
      have hblock := hslot.extend (judgedList before s) (afterList behind) (judgedList behind)
      simpa only [BlockSlot.fill, BlockSlot.scope, afterList_append, judgedList_append,
        afterList, judgedList] using hblock

end

end KernelCheck
