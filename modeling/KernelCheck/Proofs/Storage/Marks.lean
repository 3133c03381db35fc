import KernelCheck.Proofs.Storage.Judged
import KernelCheck.Proofs.Storage.Pairing
import Mathlib.Data.List.Forall2

/-!
# Marks stay

A variable that changes goes on changing until its scope ends or its name is declared
again.  The scope behind a statement is made of the bindings in front of it, which may have
got marks in the meantime, below new bindings; and a new binding is either one of
a declared name or there because its name was marked.

* `Scope.Grown` — what may be in front of the former bindings, by the names declared since.
* `Storage.grown_after` — the scope behind a statement has grown by the names declared in it,
  those in inner scopes apart.
* `Storage.isVariant_after` — so whatever changes in front of a statement that does not declare
  its name changes behind it.
-/

namespace KernelCheck

/-! ## Raised bindings -/

namespace Binding

/-- The same bindings, of which some may have got a mark. -/
def Raised (bs cs : List Binding) : Prop :=
  List.Forall₂ (fun b c => c.name = b.name ∧ (b.variant = true → c.variant = true)) bs cs

namespace Raised

variable {bs cs ds : List Binding}

/-- A stack is itself with no further mark. -/
theorem refl (bs : List Binding) : Raised bs bs :=
  List.forall₂_same.mpr fun _ _ => ⟨rfl, fun h => h⟩

/-- Raising marks twice raises marks. -/
theorem trans (h : Raised bs cs) (h' : Raised cs ds) : Raised bs ds := by
  induction h generalizing ds with
  | nil => exact h'
  | cons hbc _ ih =>
      cases h' with
      | cons hcd htail => exact .cons ⟨hcd.1.trans hbc.1, fun hb => hcd.2 (hbc.2 hb)⟩ (ih htail)

/-- What has become of two groups of bindings. -/
theorem exists_append {new old : List Binding} (h : Raised (new ++ old) cs) :
    ∃ new' old', cs = new' ++ old' ∧ Raised new new' ∧ Raised old old' := by
  induction new generalizing cs with
  | nil => exact ⟨[], cs, rfl, .nil, h⟩
  | cons b rest ih =>
      cases h with
      | cons hbc htail =>
          obtain ⟨new', old', rfl, hnew, hold⟩ := ih htail
          exact ⟨_ :: new', old', rfl, .cons hbc hnew, hold⟩

/-- Each of the later bindings was there before. -/
theorem exists_of_mem (h : Raised bs cs) {c : Binding} (hc : c ∈ cs) :
    ∃ b ∈ bs, c.name = b.name ∧ (b.variant = true → c.variant = true) := by
  induction h with
  | nil => cases hc
  | @cons b c' _ _ hbc _ ih =>
      rcases List.mem_cons.mp hc with rfl | hc
      · exact ⟨b, List.mem_cons_self, hbc⟩
      · obtain ⟨b', hb', hbc'⟩ := ih hc
        exact ⟨b', List.mem_cons_of_mem b hb', hbc'⟩

/-- A name that was marked is still marked. -/
theorem marked_mono (h : Raised bs cs) {name : Name} (hname : marked bs name = true) :
    marked cs name = true := by
  induction h with
  | nil => exact hname
  | cons hbc _ ih =>
      rw [marked_cons] at hname ⊢
      rw [hbc.1]
      split
      case isTrue hb => exact hbc.2 (by rwa [if_pos hb] at hname)
      case isFalse hb => exact ih (by rwa [if_neg hb] at hname)

/-- Marking a name's first binding raises marks, and does nothing else. -/
theorem of_markFirst? {name : Name} (h : Scope.markFirst? name bs = some cs) : Raised bs cs := by
  induction bs generalizing cs with
  | nil => cases h
  | cons b rest ih =>
      rw [Scope.markFirst?] at h
      split at h
      case isTrue =>
        cases h
        exact .cons ⟨rfl, fun _ => rfl⟩ (Raised.refl rest)
      case isFalse =>
        obtain ⟨rest', hrest, rfl⟩ := Option.map_eq_some_iff.mp h
        exact .cons ⟨rfl, fun hb => hb⟩ (ih hrest)

end Raised

end Binding

/-! ## Scopes that have grown -/

/-- The second scope has the bindings of the first one below new ones.  A new binding is
marked, or it is one of the declared names. -/
def Scope.Grown (declared : List Name) (s t : Scope) : Prop :=
  ∃ new old, t.bindings = new ++ old ∧ Binding.Raised s.bindings old ∧
    ∀ b ∈ new, b.variant = true ∨ b.name ∈ declared

namespace Scope.Grown

variable {s t u : Scope} {ns ms : List Name} {name : Name}

/-- The bindings are the same; the loops may be others. -/
theorem of_bindings_eq (h : t.bindings = s.bindings) : Grown [] s t :=
  ⟨[], s.bindings, h, .refl _, List.forall_mem_nil _⟩

/-- A scope has grown by no name. -/
theorem refl (s : Scope) : Grown [] s s := of_bindings_eq rfl

/-- A binding that is new in the first step may get its mark in the second one, but it does not
lose it. -/
theorem trans (h : Grown ns s t) (h' : Grown ms t u) : Grown (ns ++ ms) s u := by
  obtain ⟨new, old, ht, hold, hnew⟩ := h
  obtain ⟨new', between, hu, hbetween, hnew'⟩ := h'
  rw [ht] at hbetween
  obtain ⟨new'', old', rfl, hraised, hold'⟩ := hbetween.exists_append
  refine ⟨new' ++ new'', old', by simp [hu], hold.trans hold', ?_⟩
  intro c hc
  rcases List.mem_append.mp hc with hc | hc
  · exact (hnew' c hc).imp_right fun hname => List.mem_append_right ns hname
  · obtain ⟨b, hb, hbc⟩ := hraised.exists_of_mem hc
    rcases hnew b hb with hmarked | hname
    · exact .inl (hbc.2 hmarked)
    · exact .inr (List.mem_append_left ms (hbc.1 ▸ hname))

/-- What changes goes on changing if its name is not declared. -/
theorem isVariant (h : Grown ns s t) (hname : name ∉ ns) (hs : s.isVariant name = true) :
    t.isVariant name = true := by
  obtain ⟨new, old, ht, hold, hnew⟩ := h
  change Binding.marked t.bindings name = true
  rw [ht]
  clear ht
  induction new with
  | nil => exact hold.marked_mono hs
  | cons b rest ih =>
      rw [List.cons_append, Binding.marked_cons]
      split
      case isTrue hb =>
        rcases hnew b List.mem_cons_self with hmarked | hdeclared
        · exact hmarked
        · exact absurd (hb ▸ hdeclared) hname
      case isFalse => exact ih fun c hc => hnew c (List.mem_cons_of_mem b hc)

/-- All that is new is gone when the scope ends. -/
theorem leave (h : Grown ns s t) : Grown [] s (t.leave s) := by
  obtain ⟨new, old, ht, hold, -⟩ := h
  refine ⟨[], old, ?_, hold, List.forall_mem_nil _⟩
  rw [Scope.leave, ht, List.length_append, ← hold.length_eq, Nat.add_sub_cancel, List.drop_left]
  rfl

/-- Binding a name grows the scope by it. -/
theorem bind (s : Scope) (name : Name) (variant : Bool) : Grown [name] s (s.bind name variant) :=
  ⟨[⟨name, variant⟩], s.bindings, rfl, .refl _, by simp⟩

/-- Binding a name as loop-variant grows the scope by no name that could hide a mark. -/
theorem bindMarked (s : Scope) (name : Name) : Grown [] s (s.bind name true) :=
  ⟨[⟨name, true⟩], s.bindings, rfl, .refl _, by simp⟩

/-- A mark grows the scope by no name, also where it has to bind one. -/
theorem setVariant (s : Scope) (name : Name) : Grown [] s (s.setVariant name) := by
  unfold Scope.setVariant
  split
  case h_1 bindings hmark =>
      exact ⟨[], bindings, rfl, .of_markFirst? hmark, List.forall_mem_nil _⟩
  case h_2 => exact bindMarked s name

/-- Names bound as loop-variant hide no mark either. -/
theorem bindAllMarked (s : Scope) (names : List Name) : Grown [] s (s.bindAll names true) := by
  induction names generalizing s with
  | nil => exact refl s
  | cons name rest ih => exact (bindMarked s name).trans (ih (s.bind name true))

/-- Declarators grow the scope by their names. -/
theorem declare (s : Scope) (ds : List Declarator) :
    Grown (ds.map (·.name)) s (s.declare ds) := by
  induction ds generalizing s with
  | nil => exact refl s
  | cons d rest ih => exact (bind s d.name _).trans (ih _)

mutual

/-- Assignments declare nothing. -/
theorem assigned : ∀ (e : Expr) (s : Scope), Grown [] s (Scope.assigned e s)
  | .assign _ target value _, s => by
      have hvalue := assigned value s
      rw [Scope.assigned]
      cases target.ident? with
      | none => exact hvalue
      | some name =>
          dsimp only
          split
          · exact hvalue.trans (setVariant _ name)
          · exact hvalue
  | .comma parts _, s => assignedList parts s
  | .ident .., s | .int .., s | .float .., s | .char .., s | .string .., s | .unary .., s
  | .binary .., s | .call .., s | .index .., s | .member .., s | .cast .., s | .ternary .., s
  | .sizeOfType .., s => refl s

/-- The same for several expressions. -/
theorem assignedList : ∀ (es : List Expr) (s : Scope), Grown [] s (Scope.assignedList es s)
  | [], s => refl s
  | e :: rest, s => (assigned e s).trans (assignedList rest _)

end

end Scope.Grown

/-! ## Statements -/

/-- The names that a loop header declares. -/
def LoopHeader.declared (h : LoopHeader) : List Name :=
  match h.init with
  | some (.decl d) => d.declarators.map (·.name)
  | _ => []

/-- The names that a statement declares for those behind it. -/
def Stmt.declared : Stmt → List Name
  | decl d _ => d.declarators.map (·.name)
  | _ => []

namespace Storage

open Scope

/-- A loop's init clause grows the scope by the names it declares. -/
theorem grown_aroundLoop (header : LoopHeader) (s : Scope) :
    Grown header.declared s (aroundLoop header.init s) := by
  unfold aroundLoop LoopHeader.declared
  match header.init with
  | some (.decl d) => exact .declare s d.declarators
  | some (.expr _) => exact .refl s
  | none => exact .refl s

/-- What a loop iterates over changes in its body, and so does what changes around the loop. -/
theorem grown_insideLoop (header : LoopHeader) (around : Scope) :
    Grown [] around (insideLoop header around) :=
  (Grown.of_bindings_eq rfl).trans (.bindAllMarked (around.enter header.role header.span) _)

mutual

/-- **A statement adds to a scope** the names that it declares, and takes no mark back.  The
induction is on the statement; what is declared inside it is gone behind it. -/
theorem grown_after : ∀ (st : Stmt) (s : Scope), Grown st.declared s (after st s)
  | .decl d _, s => .declare s d.declarators
  | .expr e _, s => .assigned e s
  | .block stmts _ _, s => (grown_afterList stmts s).leave
  | .forLoop header body _, s =>
      have hbody := ((grown_insideLoop header (aroundLoop header.init s)).trans
        (grown_after body _)).leave
      ((grown_aroundLoop header s).trans hbody).leave
  | .whileLoop _ body span, s | .doWhile body _ span, s =>
      have henter : Grown [] s (s.enter .plain span) := .of_bindings_eq rfl
      (henter.trans (grown_after body _)).leave
  | .ifThen _ a _, s | .switch _ a _, s => (grown_after a s).leave
  | .ifElse _ a b _, s => ((grown_after a s).leave.trans (grown_after b _)).leave
  | .caseLabel .., s | .breakJump .., s | .continueJump .., s | .returnJump .., s
  | .empty .., s => .refl s

/-- The same for a list of statements. -/
theorem grown_afterList : ∀ (stmts : List Stmt) (s : Scope),
    Grown (stmts.flatMap (·.declared)) s (afterList stmts s)
  | [], s => .refl s
  | st :: rest, s => (grown_after st s).trans (grown_afterList rest _)

end

/-- A statement that does not declare a name again does not forget that it varies. -/
theorem isVariant_after {st : Stmt} {s : Scope} {name : Name} (hname : name ∉ st.declared)
    (hs : s.isVariant name = true) : (after st s).isVariant name = true :=
  (grown_after st s).isVariant hname hs

end Storage

end KernelCheck
