import KernelCheck.Proofs.Storage.Pairing
import KernelCheck.Proofs.Storage.Scopes
import Mathlib.Data.List.Forall2

/-!
# Two scopes side by side

The same statements are gone through from two scopes, a lower and an upper one.
The upper one knows more: it has a variable that the lower one lacks, or a mark.
Then it never knows less afterwards, whatever the statements declare, assign and
leave.

* `Paired.below` — every name that changes in the lower scope changes in the upper
  one.
* `SideBySide.stmt` — a statement keeps two scopes side by side, and each of its
  declarations is judged in two such scopes.
-/

namespace KernelCheck

/-- Every name that changes in the first scope changes in the second one. -/
def Scope.Below (s s' : Scope) : Prop :=
  ∀ name, s.isVariant name = true → s'.isVariant name = true

/-- An expression that mentions a variable which changes in the first scope
mentions one which changes in the second one. -/
theorem Scope.Below.firstVariant? {s s' : Scope} (h : s.Below s') {e : Expr}
    (he : (s.firstVariant? e).isSome = true) : (s'.firstVariant? e).isSome = true := by
  rw [Scope.firstVariant?, Expr.firstOccurrence?_eq_find?, List.find?_isSome] at he ⊢
  obtain ⟨o, ho, hvariant⟩ := he
  exact ⟨o, ho, h o.1 hvariant⟩

/-- Two scopes whose stacks of bindings belong together, inside the same loops. -/
structure Paired (E : Pairing) (s s' : Scope) : Prop where
  frames : s'.frames = s.frames
  lower : s.bindings = E.lower
  upper : s'.bindings = E.upper
  fits : E.Fits

/-- Two scopes that were come to from two paired ones. -/
def Onward (E : Pairing) (t t' : Scope) : Prop :=
  ∃ E', E.Grown E' ∧ Paired E' t t'

/-- A declaration is judged in two scopes, the second of which knows at least as
much. -/
structure JudgedBelow (j j' : Scope × Declaration) : Prop where
  declaration : j'.2 = j.2
  frames : j'.1.frames = j.1.frames
  below : j.1.Below j'.1

/-- Steps on from paired scopes follow one another. -/
theorem Onward.trans {E : Pairing} {s s' t t' : Scope} (h : Onward E s s')
    (h' : ∀ E', Paired E' s s' → Onward E' t t') : Onward E t t' := by
  obtain ⟨E', hgrown, hpaired⟩ := h
  obtain ⟨E'', hgrown', hpaired'⟩ := h' E' hpaired
  exact ⟨E'', hgrown.trans hgrown', hpaired'⟩

namespace Paired

variable {E : Pairing} {s s' t t' : Scope}

/-- Paired scopes are on from themselves. -/
theorem onward (h : Paired E s s') : Onward E s s' := ⟨E, .refl E, h⟩

/-- The upper scope knows at least as much. -/
theorem below (h : Paired E s s') : s.Below s' := by
  intro name hname
  change Binding.marked s'.bindings name = true
  rw [h.upper]
  apply h.fits.marked_mono
  rw [← h.lower]
  exact hname

/-- A declaration met in two paired scopes is judged by the upper one with at least as much
known. -/
theorem judgedBelow (h : Paired E s s') (d : Declaration) : JudgedBelow (s, d) (s', d) :=
  ⟨rfl, h.frames, h.below⟩

/-- Paired scopes stay paired inside a loop. -/
theorem enter (h : Paired E s s') (role : LoopRole) (span : Span) :
    Paired E (s.enter role span) (s'.enter role span) := by
  refine { h with frames := ?_ }
  simp only [Scope.enter, h.frames]

/-- A name bound in both, with no mark of the lower one missing in the upper one, keeps them
paired. -/
theorem bind (h : Paired E s s') (name : Name) {b b' : Bool} (hmark : b = true → b' = true) :
    Paired (.both name b b' :: E) (s.bind name b) (s'.bind name b') := by
  constructor
  case frames => exact h.frames
  case lower => rw [Pairing.lower_both, ← h.lower]; rfl
  case upper => rw [Pairing.upper_both, ← h.upper]; rfl
  case fits => exact .both name hmark h.fits

/-- The same for several names with one mark. -/
theorem bindAll (h : Paired E s s') (names : List Name) (b : Bool) :
    Onward E (s.bindAll names b) (s'.bindAll names b) := by
  induction names generalizing E s s' with
  | nil => exact h.onward
  | cons name rest ih =>
      have hbind : Onward E (s.bind name b) (s'.bind name b) :=
        ⟨_, .cons _ E, h.bind name fun hb => hb⟩
      exact hbind.trans fun _ hpaired => ih hpaired

/-- Declarators are variant in the upper scope whenever they are in the lower one. -/
theorem declare (h : Paired E s s') (ds : List Declarator) :
    Onward E (s.declare ds) (s'.declare ds) := by
  induction ds generalizing E s s' with
  | nil => exact h.onward
  | cons d rest ih =>
      have hmark : (d.init.bind s.firstVariant?).isSome = true →
          (d.init.bind s'.firstVariant?).isSome = true := by
        cases d.init with
        | none => exact fun hinit => hinit
        | some value => exact h.below.firstVariant?
      have hbind : Onward E (s.bind d.name (d.init.bind s.firstVariant?).isSome)
          (s'.bind d.name (d.init.bind s'.firstVariant?).isSome) :=
        ⟨_, .cons _ E, h.bind d.name hmark⟩
      exact hbind.trans fun _ hpaired => ih hpaired

/-- A further variable in the upper scope, the first of its name. -/
theorem bindUpper (h : Paired E s s') {name : Name} (b : Bool)
    (hbound : name ∉ Binding.names E.upper) :
    Paired (.onlyUpper name b :: E) s (s'.bind name b) := by
  constructor
  case frames => exact h.frames
  case lower => exact h.lower
  case upper => rw [Pairing.upper_onlyUpper, ← h.upper]; rfl
  case fits => exact .onlyUpper b (fun hname => hbound (h.fits.names_subset hname)) hbound h.fits

/-- A name marked in both scopes. Where the upper one alone has it bound, the lower one gets an
entry of its own for it. -/
theorem setBoth (h : Paired E s s') (name : Name) :
    Onward E (s.setVariant name) (s'.setVariant name) := by
  have hlower := h.lower
  have hupper := h.upper
  by_cases hbound : name ∈ Binding.names E.lower
  · obtain ⟨E', hfits, hblank, hmark, hmark'⟩ := h.fits.markBoth hbound
    rw [← hlower] at hmark
    rw [← hupper] at hmark'
    rw [Scope.setVariant_of_markFirst? hmark, Scope.setVariant_of_markFirst? hmark']
    exact ⟨E', .of_blank_eq hblank, h.frames, rfl, rfl, hfits⟩
  · have hbind : s.setVariant name = s.bind name true :=
      Scope.setVariant_of_unbound (hlower ▸ hbound)
    rw [hbind]
    by_cases hbound' : name ∈ Binding.names E.upper
    · obtain ⟨E', hfits, hblank, hsame, hmark⟩ := h.fits.markUpper hbound'
      have hmarked : Binding.marked E'.upper name = true := by
        rw [Binding.marked_markFirst? hmark, beq_self_eq_true, Bool.true_or]
      rw [← hupper] at hmark
      rw [Scope.setVariant_of_markFirst? hmark]
      refine ⟨.onlyLower name :: E', (Pairing.Grown.of_blank_eq hblank).trans (.cons _ E'),
        h.frames, ?_, rfl, .onlyLower (hsame ▸ hbound) hmarked hfits⟩
      rw [Pairing.lower_onlyLower, hsame, ← hlower]
      rfl
    · rw [Scope.setVariant_of_unbound (hupper ▸ hbound')]
      exact ⟨_, .cons _ E, h.bind name fun hb => hb⟩

/-- A name marked in the upper scope alone. -/
theorem setUpper (h : Paired E s s') (name : Name) : Onward E s (s'.setVariant name) := by
  have hupper := h.upper
  by_cases hbound : name ∈ Binding.names E.upper
  · obtain ⟨E', hfits, hblank, hsame, hmark⟩ := h.fits.markUpper hbound
    rw [← hupper] at hmark
    rw [Scope.setVariant_of_markFirst? hmark]
    exact ⟨E', .of_blank_eq hblank, h.frames, h.lower.trans hsame.symm, rfl, hfits⟩
  · rw [Scope.setVariant_of_unbound (hupper ▸ hbound)]
    exact ⟨_, .cons _ E, h.bindUpper true hbound⟩

mutual

/-- The assignments of an expression statement.  A value that changes in the lower
scope changes in the upper one, so nothing is marked in the lower scope alone. -/
theorem assigned : ∀ (e : Expr) {E : Pairing} {s s' : Scope}, Paired E s s' →
    Onward E (Scope.assigned e s) (Scope.assigned e s')
  | .assign _ target value _, E, s, s', h => by
      have hvalue := assigned value h
      rw [Scope.assigned, Scope.assigned]
      cases target.ident? with
      | none => exact hvalue
      | some name =>
          refine hvalue.trans fun E' hpaired => ?_
          dsimp only
          by_cases hlower : ((Scope.assigned value s).firstVariant? value).isSome
          · rw [if_pos hlower, if_pos (hpaired.below.firstVariant? hlower)]
            exact hpaired.setBoth name
          · rw [if_neg hlower]
            split
            · exact hpaired.setUpper name
            · exact hpaired.onward
  | .comma parts _, _, _, _, h => assignedList parts h
  | .ident .., _, _, _, h | .int .., _, _, _, h | .float .., _, _, _, h | .char .., _, _, _, h
  | .string .., _, _, _, h | .unary .., _, _, _, h | .binary .., _, _, _, h
  | .call .., _, _, _, h | .index .., _, _, _, h | .member .., _, _, _, h | .cast .., _, _, _, h
  | .ternary .., _, _, _, h | .sizeOfType .., _, _, _, h => h.onward

/-- The same for several expressions. -/
theorem assignedList : ∀ (es : List Expr) {E : Pairing} {s s' : Scope}, Paired E s s' →
    Onward E (Scope.assignedList es s) (Scope.assignedList es s')
  | [], _, _, _, h => h.onward
  | e :: rest, _, _, _, h => (assigned e h).trans fun _ hpaired => assignedList rest hpaired

end

end Paired

/-- When a scope ends, both scopes are cut at the same entry. -/
theorem Onward.leave {E : Pairing} {s s' t t' : Scope} (h : Onward E t t') (hstart : Paired E s s')
    (hframes : (t.leave s).frames = s.frames) (hframes' : (t'.leave s').frames = s'.frames) :
    Onward E (t.leave s) (t'.leave s') := by
  obtain ⟨E', hgrown, hpaired⟩ := h
  obtain ⟨old, hfits, hgrown', hlower, hupper⟩ := hgrown.cut hpaired.fits
  refine ⟨old, hgrown', ?_, ?_, ?_, hfits⟩
  · rw [hframes, hframes', hstart.frames]
  · rw [← hlower, ← hpaired.lower, ← hstart.lower]
    rfl
  · rw [← hupper, ← hpaired.upper, ← hstart.upper]
    rfl

/-- What two scopes come to, with the declarations that are judged on the way. -/
structure SideBySide (E : Pairing) (t : Scope) (js : List (Scope × Declaration)) (t' : Scope)
    (js' : List (Scope × Declaration)) : Prop where
  onward : Onward E t t'
  judged : List.Forall₂ JudgedBelow js js'

namespace SideBySide

variable {E : Pairing} {s s' t t' u u' : Scope} {js js' ks ks' : List (Scope × Declaration)}

/-- Nothing is done and nothing judged. -/
theorem refl (h : Paired E s s') : SideBySide E s [] s' [] := ⟨h.onward, .nil⟩

/-- What is done one after another, side by side. -/
theorem trans (h : SideBySide E t js t' js')
    (h' : ∀ E', Paired E' t t' → SideBySide E' u ks u' ks') :
    SideBySide E u (js ++ ks) u' (js' ++ ks') := by
  obtain ⟨⟨E', hgrown, hpaired⟩, hjudged⟩ := h
  obtain ⟨⟨E'', hgrown', hpaired'⟩, hjudged'⟩ := h' E' hpaired
  exact ⟨⟨E'', hgrown.trans hgrown', hpaired'⟩, List.rel_append hjudged hjudged'⟩

/-- Two scopes that leave what they entered together are side by side again. -/
theorem leave (h : SideBySide E t js t' js') (hstart : Paired E s s')
    (hframes : (t.leave s).frames = s.frames) (hframes' : (t'.leave s').frames = s'.frames) :
    SideBySide E (t.leave s) js (t'.leave s') js' :=
  ⟨h.onward.leave hstart hframes hframes', h.judged⟩

/-- A declaration, judged in both. -/
theorem declare (h : Paired E s s') (d : Declaration) :
    SideBySide E (s.declare d.declarators) [(s, d)] (s'.declare d.declarators) [(s', d)] :=
  ⟨h.declare d.declarators, .cons (h.judgedBelow d) .nil⟩

/-- A loop's init clause. -/
theorem init (h : Paired E s s') (init : Option ForInit) :
    SideBySide E (Storage.aroundLoop init s) (Storage.judgedInit init s)
      (Storage.aroundLoop init s') (Storage.judgedInit init s') := by
  match init with
  | some (.decl d) => exact declare h d
  | some (.expr _) => exact refl h
  | none => exact refl h

/-- The way into a loop's body. -/
theorem enterLoop (h : Paired E s s') (header : LoopHeader) :
    SideBySide E (Storage.insideLoop header s) [] (Storage.insideLoop header s') [] :=
  ⟨(h.enter header.role header.span).bindAll _ true, .nil⟩

open Storage in
mutual

/-- **Two scopes stay side by side** through a statement.  The induction is on the
statement; each scope that ends is cut in both at the entry where it began. -/
theorem stmt : ∀ (st : Stmt) {E : Pairing} {s s' : Scope}, Paired E s s' →
    SideBySide E (after st s) (Storage.judged st s) (after st s') (Storage.judged st s')
  | .decl d _, _, _, _, h => declare h d
  | .expr e _, _, _, _, h => ⟨h.assigned e, .nil⟩
  | .block stmts blockSpan span, _, s, s', h => by
      have hstmts := stmtList stmts h
      exact hstmts.leave h (frames_after (.block stmts blockSpan span) s)
        (frames_after (.block stmts blockSpan span) s')
  | .forLoop header body span, E, s, s', h => by
      have hloop := (init h header.init).trans fun E' haround =>
        ((enterLoop haround header).trans fun E'' hinside => stmt body hinside).leave haround
          (frames_leave_insideLoop header body _) (frames_leave_insideLoop header body _)
      exact hloop.leave h (frames_after (.forLoop header body span) s)
        (frames_after (.forLoop header body span) s')
  | .whileLoop c body span, _, s, s', h => by
      have hbody := stmt body (h.enter .plain span)
      exact ⟨hbody.onward.leave h (frames_after (.whileLoop c body span) s)
        (frames_after (.whileLoop c body span) s'), hbody.judged⟩
  | .doWhile body c span, _, s, s', h => by
      have hbody := stmt body (h.enter .plain span)
      exact ⟨hbody.onward.leave h (frames_after (.doWhile body c span) s)
        (frames_after (.doWhile body c span) s'), hbody.judged⟩
  | .ifThen c a span, _, s, s', h =>
      (stmt a h).leave h (frames_after (.ifThen c a span) s) (frames_after (.ifThen c a span) s')
  | .switch c body span, _, s, s', h =>
      (stmt body h).leave h (frames_after (.switch c body span) s)
        (frames_after (.switch c body span) s')
  | .ifElse c a b span, _, s, s', h => by
      have ha := (stmt a h).leave h (frames_after (.ifThen c a span) s)
        (frames_after (.ifThen c a span) s')
      have hb := ha.trans fun _ hbetween => stmt b hbetween
      exact hb.leave h (frames_after (.ifElse c a b span) s)
        (frames_after (.ifElse c a b span) s')
  | .caseLabel .., _, _, _, h | .breakJump .., _, _, _, h | .continueJump .., _, _, _, h
  | .returnJump .., _, _, _, h | .empty .., _, _, _, h => refl h

/-- The same for a list of statements. -/
theorem stmtList : ∀ (stmts : List Stmt) {E : Pairing} {s s' : Scope}, Paired E s s' →
    SideBySide E (afterList stmts s) (judgedList stmts s) (afterList stmts s')
      (judgedList stmts s')
  | [], _, _, _, h => refl h
  | st :: rest, _, _, _, h => (stmt st h).trans fun _ hbetween => stmtList rest hbetween

end

end SideBySide

end KernelCheck
