import Mathlib.Data.List.Forall2
import KernelCheck.Proofs.Occurrences
import KernelCheck.Proofs.Storage.Forgotten
import KernelCheck.Proofs.Storage.Scopes

/-!
# The rules on storage and lexical scope

The rules carry a stack of bindings through a kernel, mark the topmost binding of
a name, and cut the stack when a scope ends.  A lexical walk through the same
kernel numbers the variables, and a loop iterates over a variable that is there
already.  The rules bind the name of that variable once more inside the loop; what
they mark there is the second binding, which is gone behind the loop.

The two agree if the stack is, entry by entry, the list of what encloses the
point: a declared variable has the mark that its remembered past gives it, and the
second binding of a loop is marked (`Agrees`).  The mark of a variable that a loop
around the point declares is of no account: the second binding hides it until both
go.

Every operation on scopes keeps that agreement: a new binding is a new variable,
the topmost binding of a name is the variable that the name means or a loop over
it, and a cut stack is a former list, with the marks of the present.

* `Lexical.Stacked.variant_eq` — what the topmost binding of a name says.
* `Lexical.Simulates.stmt` — the run lemma, by induction on the statement.
* `storage_lexical_iff` — regular kernels have the problems of their lexical walks,
  exactly if no dimension owes its problem to a forgotten value.
-/

namespace KernelCheck

namespace Stmt

mutual

/-- A loop whose markers are looked at is one of the statement's loops. -/
theorem mem_loops_of_markerSites {header : LoopHeader} :
    ∀ (st : Stmt), .loop header ∈ st.markerSites → header ∈ st.loops
  | .expr .., h | .caseLabel .., h | .breakJump .., h | .continueJump .., h | .returnJump .., h
  | .empty .., h => by cases h
  | .decl _ _, h => by simp [markerSites] at h
  | .block stmts _ _, h => mem_loopsList_of_markerSitesList stmts h
  | .ifThen _ a _, h => mem_loops_of_markerSites a h
  | .ifElse _ a b _, h => by
      rcases List.mem_append.mp h with h | h
      · exact List.mem_append_left _ (mem_loops_of_markerSites a h)
      · exact List.mem_append_right _ (mem_loops_of_markerSites b h)
  | .forLoop outer body _, h => by
      rw [markerSites, List.mem_cons, List.mem_append] at h
      rcases h with h | h | h
      · cases h
        exact List.mem_cons_self
      · unfold LoopHeader.initSites at h
        split at h <;> simp at h
      · exact List.mem_cons_of_mem _ (mem_loops_of_markerSites body h)
  | .whileLoop _ body _, h | .doWhile body _ _, h | .switch _ body _, h =>
      mem_loops_of_markerSites body h

/-- The same for a list of statements. -/
theorem mem_loopsList_of_markerSitesList {header : LoopHeader} :
    ∀ (stmts : List Stmt), .loop header ∈ markerSitesList stmts → header ∈ loopsList stmts
  | [], h => by cases h
  | st :: rest, h => by
      rcases List.mem_append.mp h with h | h
      · exact List.mem_append_left _ (mem_loops_of_markerSites st h)
      · exact List.mem_append_right _ (mem_loopsList_of_markerSitesList rest h)

end

end Stmt

namespace Lexical

/-! ## Layers -/

namespace View

variable (view : View) (v : Variable)

/-- A loop around the point iterates over the variable, and declares it for itself. -/
def owns : Bool :=
  view.any fun
    | .iterated _ w own => own && w == v
    | .declared .. => false

/-- A name means the variable that is declared last under it. -/
@[simp] theorem resolve_declared (name : Name) (number : Nat) (other : Name) :
    resolve (.declared name number :: view) other =
      if name = other then .inside number else view.resolve other := rfl

/-- A loop does not change what a name means. -/
@[simp] theorem resolve_iterated (name : Name) (w : Variable) (own : Bool) (other : Name) :
    resolve (.iterated name w own :: view) other = view.resolve other := rfl

/-- A declaration is no loop. -/
@[simp] theorem iterates_declared (name : Name) (number : Nat) :
    iterates (.declared name number :: view) v = view.iterates v := rfl

/-- A further loop iterates over its variable. -/
@[simp] theorem iterates_iterated (name : Name) (w : Variable) (own : Bool) :
    iterates (.iterated name w own :: view) v = (w == v || view.iterates v) := rfl

/-- A loop assigns the variable that it iterates over, or declares it. -/
theorem iterates_eq_or : view.iterates v = (view.reassigns v || view.owns v) := by
  induction view with
  | nil => rfl
  | cons layer rest ih =>
      simp only [iterates, reassigns, owns] at ih
      simp only [iterates, reassigns, owns, List.any_cons, ih]
      cases layer with
      | declared => rfl
      | iterated _ _ own => cases own <;> simp [Bool.or_assoc, Bool.or_left_comm]

/-- Loops that declare only later variables for themselves declare no earlier one. -/
theorem owns_eq_false {new : View} {count number : Nat}
    (hown : ∀ name v, .iterated name v true ∈ new → ∃ later, v = .inside later ∧ count ≤ later)
    (hlt : number < count) : new.owns (.inside number) = false := by
  refine Bool.eq_false_iff.mpr fun howns => ?_
  obtain ⟨layer, hlayer, howned⟩ := List.any_eq_true.mp howns
  cases layer with
  | declared => cases howned
  | iterated name v own =>
      rw [Bool.and_eq_true, beq_iff_eq] at howned
      obtain ⟨rfl, rfl⟩ := howned
      obtain ⟨later, heq, hle⟩ := hown name _ hlayer
      obtain rfl := Variable.inside.inj heq
      exact Nat.lt_irrefl _ (Nat.lt_of_lt_of_le hlt hle)

end View

/-- What encloses a point after `count` variables: each of them is declared once,
the later ones further in, and a loop iterates over the variable that its name means
in front of the loop. -/
inductive Formed : Nat → View → Prop where
  | nil {count : Nat} : Formed count []
  | declared {count number : Nat} {name : Name} {view : View} (hlt : number < count)
      (h : Formed number view) : Formed count (.declared name number :: view)
  | iterated {count : Nat} {name : Name} {v : Variable} {own : Bool} {view : View}
      (hv : v = view.resolve name) (hown : own = true → ∃ number, v = .inside number)
      (h : Formed count view) : Formed count (.iterated name v own :: view)

namespace Formed

variable {count count' number : Nat} {view : View} {name : Name}

/-- There may have been more variables, which are gone. -/
theorem mono (h : Formed count view) (hle : count ≤ count') : Formed count' view := by
  induction h with
  | nil => exact .nil
  | declared hlt h _ => exact .declared (Nat.lt_of_lt_of_le hlt hle) h
  | iterated hv hown _ ih => exact .iterated hv hown (ih hle)

/-- A declared variable has a number below the count. -/
theorem declared_lt (h : Formed count view) (hmem : .declared name number ∈ view) :
    number < count := by
  induction h with
  | nil => cases hmem
  | declared hlt _ ih =>
      rcases List.mem_cons.mp hmem with heq | hmem
      · obtain ⟨-, rfl⟩ := Layer.declared.inj heq
        exact hlt
      · exact (ih hmem).trans hlt
  | iterated _ _ _ ih =>
      rcases List.mem_cons.mp hmem with heq | hmem
      · cases heq
      · exact ih hmem

/-- The variable that a name means has a number below the count. -/
theorem resolve_lt (h : Formed count view) (hresolve : view.resolve name = .inside number) :
    number < count := by
  induction h with
  | nil => cases hresolve
  | @declared count k other view hlt _ ih =>
      rw [View.resolve_declared] at hresolve
      split at hresolve
      · cases hresolve
        exact hlt
      · exact (ih hresolve).trans hlt
  | iterated _ _ _ ih => exact ih hresolve

/-- A variable that a loop iterates over has a number below the count. -/
theorem iterates_lt (h : Formed count view) (hiterates : view.iterates (.inside number) = true) :
    number < count := by
  induction h with
  | nil => cases hiterates
  | declared hlt _ ih => exact (ih hiterates).trans hlt
  | iterated hv _ h ih =>
      rw [View.iterates_iterated, Bool.or_eq_true, beq_iff_eq] at hiterates
      rcases hiterates with heq | hiterates
      · exact h.resolve_lt (hv.symm.trans heq)
      · exact ih hiterates

/-- Two names mean two variables. -/
theorem resolve_inj (h : Formed count view) {a b : Name}
    (heq : view.resolve a = view.resolve b) : a = b := by
  induction h with
  | nil => exact Variable.outside.inj heq
  | declared _ h ih =>
      rw [View.resolve_declared, View.resolve_declared] at heq
      split at heq <;> split at heq
      · exact Eq.trans (Eq.symm ‹_›) ‹_›
      · exact absurd (h.resolve_lt heq.symm) (Nat.lt_irrefl _)
      · exact absurd (h.resolve_lt heq) (Nat.lt_irrefl _)
      · exact ih heq
  | iterated _ _ _ ih => exact ih heq

/-- The variable that one name means is not the one that another name means. -/
theorem beq_resolve_eq_false (h : Formed count view) {v : Variable} {other : Name}
    (hv : v = view.resolve other) (hother : ¬ other = name) :
    (v == view.resolve name) = false :=
  beq_eq_false_iff_ne.mpr fun heq => hother (h.resolve_inj (hv.symm.trans heq))

/-- What a loop declares for itself is a variable of the kernel. -/
theorem inside_of_owns (h : Formed count view) {v : Variable} (howns : view.owns v = true) :
    ∃ number, v = .inside number := by
  induction h with
  | nil => cases howns
  | declared _ _ ih => exact ih howns
  | @iterated count name w own view hv hown _ ih =>
      have hor : (own && w == v || view.owns v) = true := howns
      rw [Bool.or_eq_true, Bool.and_eq_true, beq_iff_eq] at hor
      rcases hor with ⟨htrue, rfl⟩ | howns
      · exact hown htrue
      · exact ih howns

end Formed

/-- What a binding shows of a layer.  The binding of a loop is marked; that of a
variable has its mark, unless it is hidden. -/
def Layer.Fits (hidden changes : Variable → Bool) : Layer → Binding → Prop
  | .declared name number, b =>
    b.name = name ∧ (hidden (.inside number) = false → b.variant = changes (.inside number))
  | .iterated name _ _, b => b = ⟨name, true⟩

/-- The bindings show the layers, one by one. -/
abbrev Stacked (hidden changes : Variable → Bool) (view : View) (bindings : List Binding) : Prop :=
  List.Forall₂ (Layer.Fits hidden changes) view bindings

namespace Stacked

variable {hidden changes hidden' changes' : Variable → Bool} {view : View}
  {bindings : List Binding} {count : Nat} {name : Name}

/-- Only the marks of variables that are declared and not hidden count. -/
theorem congr (h : Stacked hidden changes view bindings)
    (hsame : ∀ name number, .declared name number ∈ view → hidden' (.inside number) = false →
      hidden (.inside number) = false ∧ changes' (.inside number) = changes (.inside number)) :
    Stacked hidden' changes' view bindings := by
  induction h with
  | nil => exact .nil
  | @cons layer b view bindings hfits _ ih =>
      refine .cons ?_ (ih fun n number hmem => hsame n number (List.mem_cons_of_mem _ hmem))
      cases layer with
      | declared n number =>
          refine ⟨hfits.1, fun hhidden => ?_⟩
          obtain ⟨hfalse, heq⟩ := hsame n number List.mem_cons_self hhidden
          rw [heq, hfits.2 hfalse]
      | iterated => exact hfits

/-- **The topmost binding of a name** is marked if a loop around the point iterates
over the variable that the name means, or if that variable has a mark. -/
theorem variant_eq (h : Stacked hidden changes view bindings) (hformed : Formed count view)
    (houtside : changes (.outside name) = false)
    (hhidden : hidden (view.resolve name) = true → view.iterates (view.resolve name) = true) :
    ((bindings.find? (·.name == name)).map (·.variant)).getD false =
      (view.iterates (view.resolve name) || changes (view.resolve name)) := by
  induction hformed generalizing bindings with
  | nil =>
      cases h
      exact houtside.symm
  | @declared count number other view _ hformed ih =>
      obtain _ | ⟨⟨hname, hvariant⟩, hrest⟩ := h
      by_cases hother : other = name
      · simp only [View.resolve_declared, if_pos hother, View.iterates_declared] at hhidden ⊢
        have hiterates : view.iterates (.inside number) = false :=
          Bool.eq_false_iff.mpr fun htrue => Nat.lt_irrefl _ (hformed.iterates_lt htrue)
        rw [hiterates, Bool.false_or, ← hvariant (Bool.eq_false_iff.mpr fun htrue => by
          rw [hhidden htrue] at hiterates
          cases hiterates)]
        simp [hname, hother]
      · simp only [View.resolve_declared, if_neg hother, View.iterates_declared] at hhidden ⊢
        rw [List.find?_cons_of_neg (by simp [hname, hother])]
        exact ih hrest hhidden
  | @iterated count other v own view hv _ hformed ih =>
      obtain _ | ⟨rfl, hrest⟩ := h
      by_cases hother : other = name
      · subst hother
        simp [hv]
      · have hne := hformed.beq_resolve_eq_false hv hother
        simp only [View.resolve_iterated, View.iterates_iterated, hne, Bool.false_or]
          at hhidden ⊢
        rw [List.find?_cons_of_neg (by simp [hother])]
        exact ih hrest hhidden

/-- Marking a name inside a loop over its variable marks the binding of the loop,
which is marked already. -/
theorem markFirst?_of_iterates (h : Stacked hidden changes view bindings)
    (hformed : Formed count view) (hiterates : view.iterates (view.resolve name) = true) :
    Scope.markFirst? name bindings = some bindings := by
  induction hformed generalizing bindings with
  | nil => cases hiterates
  | @declared count number other view _ hformed ih =>
      obtain _ | ⟨⟨hname, _⟩, hrest⟩ := h
      by_cases hother : other = name
      · simp only [View.resolve_declared, if_pos hother, View.iterates_declared] at hiterates
        exact absurd (hformed.iterates_lt hiterates) (Nat.lt_irrefl _)
      · simp only [View.resolve_declared, if_neg hother, View.iterates_declared] at hiterates
        simp [Scope.markFirst?, hname, hother, ih hrest hiterates]
  | @iterated count other v own view hv _ hformed ih =>
      obtain _ | ⟨rfl, hrest⟩ := h
      by_cases hother : other = name
      · simp [Scope.markFirst?, hother]
      · have hne := hformed.beq_resolve_eq_false hv hother
        simp only [View.resolve_iterated, View.iterates_iterated, hne, Bool.false_or]
          at hiterates
        simp [Scope.markFirst?, hother, ih hrest hiterates]

/-- Marking a name of a variable that no loop around iterates over marks that
variable, and no other. -/
theorem markFirst?_of_declared (h : Stacked hidden changes view bindings)
    (hformed : Formed count view) {number : Nat} (hresolve : view.resolve name = .inside number)
    (hiterates : view.iterates (.inside number) = false) :
    ∃ marked, Scope.markFirst? name bindings = some marked ∧
      Stacked hidden (fun v => v == .inside number || changes v) view marked := by
  induction hformed generalizing bindings with
  | nil => cases hresolve
  | @declared count k other view _ hformed ih =>
      obtain _ | @⟨_, b, _, rest, ⟨hname, hvariant⟩, hrest⟩ := h
      by_cases hother : other = name
      · simp only [View.resolve_declared, if_pos hother, Variable.inside.injEq] at hresolve
        subst hresolve
        refine ⟨{ b with variant := true } :: rest, ?_, .cons ⟨hname, fun _ => ?_⟩ ?_⟩
        · rw [Scope.markFirst?, if_pos (hname.trans hother)]
        · simp
        · apply Stacked.congr hrest
          intro n l hmem hfalse
          have hlt := hformed.declared_lt hmem
          have hne : (Variable.inside l == .inside k) = false := by
            rw [beq_eq_false_iff_ne, ne_eq, Variable.inside.injEq]
            omega
          exact ⟨hfalse, by rw [hne, Bool.false_or]⟩
      · simp only [View.resolve_declared, if_neg hother] at hresolve
        obtain ⟨marked, hmark, hstacked⟩ := ih hrest hresolve hiterates
        have hne : (Variable.inside k == .inside number) = false := by
          have hlt := hformed.resolve_lt hresolve
          rw [beq_eq_false_iff_ne, ne_eq, Variable.inside.injEq]
          omega
        refine ⟨b :: marked, ?_, .cons ⟨hname, fun hfalse => ?_⟩ hstacked⟩
        · rw [Scope.markFirst?, if_neg fun heq => hother (hname.symm.trans heq), hmark]
          rfl
        · change b.variant = (Variable.inside k == .inside number || changes (.inside k))
          rw [hne, Bool.false_or]
          exact hvariant hfalse
  | @iterated count other v own view hv _ hformed ih =>
      obtain _ | @⟨_, b, _, rest, hb, hrest⟩ := h
      rw [View.iterates_iterated, Bool.or_eq_false_iff] at hiterates
      have hother : ¬ other = name := by
        rintro rfl
        exact beq_eq_false_iff_ne.mp hiterates.1 (hv.trans hresolve)
      obtain ⟨marked, hmark, hstacked⟩ := ih hrest hresolve hiterates.2
      refine ⟨b :: marked, ?_, .cons hb hstacked⟩
      rw [Scope.markFirst?, if_neg fun heq => hother ((congrArg (·.name) hb).symm.trans heq), hmark]
      rfl

end Stacked

/-! ## Agreement of a scope with a walk -/

/-- The mark of a variable after what has happened: it got a value that changes, and
the rules have not forgotten it. -/
def marked (past : List Event) (v : Variable) : Bool := loopVariant (remembered past) [] v

/-- The bindings show what encloses the point, and the loops around the point are the
same. -/
structure Agrees (loops : List LoopHeader) (s : Scope) (w : Walk) : Prop where
  stacked : Stacked w.view.owns (marked w.past) w.view s.bindings
  formed : Formed w.count w.view
  fresh : ∀ number, w.count ≤ number → marked w.past (.inside number) = false
  outside : ∀ name, marked w.past (.outside name) = false
  outer : s.hasOuter = loops.any (·.role == .outer)
  inner : s.nearestInner? = (loops.find? (·.role == .inner)).map (·.span)

/-- A value marks its variable if it mentions one that changes, and is not
forgotten. -/
theorem marked_gets (v : Variable) (value : Expr) (view : View) (past : List Event)
    (u : Variable) :
    marked (.gets v value view :: past) u =
      (!view.reassigns v && (u == v && (firstVariant? (remembered past) view value).isSome) ||
        marked past u) := by
  cases hforgotten : view.reassigns v with
  | true =>
      have hpast : remembered (.gets v value view :: past) = remembered past :=
        List.filter_cons_of_neg (by simp [Event.isForgotten, hforgotten])
      rw [marked, hpast, Bool.not_true, Bool.false_and, Bool.false_or]
      rfl
  | false =>
      have hpast : remembered (.gets v value view :: past) =
          .gets v value view :: remembered past :=
        List.filter_cons_of_pos (by simp [Event.isForgotten, hforgotten])
      have hvalue : (firstVariant? (remembered past) view value).isSome =
          value.occurrences.any fun o => loopVariant (remembered past) view (view.resolve o.1) := by
        rw [Bool.eq_iff_iff, firstVariant?, List.find?_isSome, List.any_eq_true]
      rw [marked, hpast, loopVariant, hvalue, Bool.not_false, Bool.true_and]
      rfl

/-- The mark of a variable stays if another variable gets a value, or if the value is
forgotten. -/
theorem marked_gets_eq {v u : Variable} {value : Expr} {view : View} {past : List Event}
    (h : v = u → view.reassigns v = true) :
    marked (.gets v value view :: past) u = marked past u := by
  rw [marked_gets]
  by_cases heq : v = u
  · rw [h heq, Bool.not_true, Bool.false_and, Bool.false_or]
  · rw [beq_eq_false_iff_ne.mpr (Ne.symm heq), Bool.false_and, Bool.and_false, Bool.false_or]

namespace Agrees

variable {loops inside : List LoopHeader} {s t t' : Scope} {w w' : Walk}

/-- A name changes in a scope if it means a variable that changes. -/
theorem isVariant_eq (h : Agrees loops s w) (name : Name) :
    s.isVariant name = loopVariant (remembered w.past) w.view (w.view.resolve name) := by
  rw [Scope.isVariant, loopVariant_eq_or]
  apply h.stacked.variant_eq h.formed (h.outside name)
  intro howns
  rw [View.iterates_eq_or, howns, Bool.or_true]

/-- The leftmost name that changes in a scope is the leftmost variable that changes. -/
theorem firstVariant?_eq (h : Agrees loops s w) (e : Expr) :
    s.firstVariant? e = firstVariant? (remembered w.past) w.view e := by
  rw [Scope.firstVariant?, Expr.firstOccurrence?_eq_find?]
  apply List.find?_congr
  intro o _
  exact h.isVariant_eq o.1

/-- An event that marks nothing changes nothing. -/
theorem record {ev : Event} (h : Agrees loops s w)
    (hev : ∀ v, marked (ev :: w.past) v = marked w.past v) :
    Agrees loops s (w.record ev) := by
  constructor
  case stacked =>
    apply Stacked.congr h.stacked
    exact fun _ _ _ hfalse => ⟨hfalse, hev _⟩
  case formed => exact h.formed
  case fresh => exact fun number hn => (hev _).trans (h.fresh number hn)
  case outside => exact fun name => (hev _).trans (h.outside name)
  case outer => exact h.outer
  case inner => exact h.inner

/-- A new binding is a new variable, whose mark it has. -/
theorem bind {past : List Event} {variant : Bool} (h : Agrees loops s w) (name : Name)
    (hnew : marked past (.inside w.count) = variant)
    (hold : ∀ v, v ≠ .inside w.count → marked past v = marked w.past v) :
    Agrees loops (s.bind name variant) { w.introduce name with past := past } := by
  have hne : ∀ number, number ≠ w.count → Variable.inside number ≠ .inside w.count := by
    intro number hnumber heq
    exact hnumber (Variable.inside.inj heq)
  constructor
  case stacked =>
    refine .cons ⟨rfl, fun _ => hnew.symm⟩ (Stacked.congr h.stacked ?_)
    intro n number hmem hfalse
    exact ⟨hfalse, hold _ (hne number (Nat.ne_of_lt (h.formed.declared_lt hmem)))⟩
  case formed => exact .declared (Nat.lt_succ_self w.count) h.formed
  case fresh =>
    intro number hn
    have hlt : w.count < number := hn
    exact (hold _ (hne number (Nat.ne_of_gt hlt))).trans (h.fresh number (Nat.le_of_lt hlt))
  case outside => exact fun n => (hold _ (by simp)).trans (h.outside n)
  case outer => exact h.outer
  case inner => exact h.inner

/-- A value of a variable that a name means marks no variable that is still to come. -/
theorem fresh_gets (h : Agrees loops s w) (name : Name) (value : Expr) (number : Nat)
    (hn : w.count ≤ number) :
    marked (.gets (w.view.resolve name) value w.view :: w.past) (.inside number) = false := by
  have hne : w.view.resolve name ≠ .inside number := fun heq =>
    absurd (h.formed.resolve_lt heq) (Nat.not_lt_of_le hn)
  exact (marked_gets_eq fun heq => absurd heq hne).trans (h.fresh number hn)

/-- Inside a loop over it a variable may get any value: the value is forgotten, or the
loop declares the variable itself and hides its mark. -/
theorem assign_iterated (h : Agrees loops s w) {name : Name} (value : Expr)
    (hiterates : w.view.iterates (w.view.resolve name) = true) :
    Agrees loops s (w.record (.gets (w.view.resolve name) value w.view)) := by
  have hshown : ∀ u, w.view.owns u = false →
      marked (.gets (w.view.resolve name) value w.view :: w.past) u = marked w.past u := by
    intro u hu
    apply marked_gets_eq
    rintro rfl
    rw [View.iterates_eq_or, hu, Bool.or_false] at hiterates
    exact hiterates
  constructor
  case stacked =>
    apply Stacked.congr h.stacked
    exact fun _ _ _ hfalse => ⟨hfalse, hshown _ hfalse⟩
  case formed => exact h.formed
  case fresh => exact h.fresh_gets name value
  case outside =>
    intro n
    have howns : w.view.owns (.outside n) = false := by
      refine Bool.eq_false_iff.mpr fun htrue => ?_
      obtain ⟨number, heq⟩ := h.formed.inside_of_owns htrue
      cases heq
    exact (hshown _ howns).trans (h.outside n)
  case outer => exact h.outer
  case inner => exact h.inner

/-- Where no loop iterates over it, a variable of the kernel that gets a value which
changes is marked in its own binding. -/
theorem assign_declared (h : Agrees loops s w) {name : Name} {value : Expr} {number : Nat}
    (hresolve : w.view.resolve name = .inside number)
    (hiterates : w.view.iterates (.inside number) = false)
    (hvalue : (s.firstVariant? value).isSome = true) :
    Agrees loops (s.setVariant name)
      (w.record (.gets (w.view.resolve name) value w.view)) := by
  obtain ⟨bindings, hfirst, hstacked⟩ :=
    h.stacked.markFirst?_of_declared h.formed hresolve hiterates
  have hset : s.setVariant name = { s with bindings } := by
    rw [Scope.setVariant, hfirst]
  have hreassigns : w.view.reassigns (.inside number) = false := by
    rw [View.iterates_eq_or, Bool.or_eq_false_iff] at hiterates
    exact hiterates.1
  rw [h.firstVariant?_eq] at hvalue
  have hmark : ∀ u, marked (.gets (w.view.resolve name) value w.view :: w.past) u =
      (u == .inside number || marked w.past u) := by
    intro u
    rw [hresolve, marked_gets, hreassigns, hvalue, Bool.not_false, Bool.true_and, Bool.and_true]
  rw [hset]
  constructor
  case stacked =>
    apply Stacked.congr hstacked
    exact fun _ _ _ hfalse => ⟨hfalse, hmark _⟩
  case formed => exact h.formed
  case fresh => exact h.fresh_gets name value
  case outside =>
    intro n
    have hne : (Variable.outside n == .inside number) = false :=
      beq_eq_false_iff_ne.mpr fun heq => by cases heq
    exact (hmark _).trans (by rw [hne, Bool.false_or, h.outside n])
  case outer => exact h.outer
  case inner => exact h.inner

/-- **An assignment** of a value that changes marks the topmost binding of the name.
That is the variable that the name means, or the binding of a loop over it, which is
marked already. -/
theorem assign (h : Agrees loops s w) (name : Name) (value : Expr)
    (hbound : (Event.gets (w.view.resolve name) value w.view).givesUnbound = false) :
    Agrees loops (if (s.firstVariant? value).isSome then s.setVariant name else s)
      (w.record (.gets (w.view.resolve name) value w.view)) := by
  by_cases hiterates : w.view.iterates (w.view.resolve name) = true
  · have hset : s.setVariant name = s := by
      rw [Scope.setVariant, h.stacked.markFirst?_of_iterates h.formed hiterates]
    rw [hset, ite_self]
    exact h.assign_iterated value hiterates
  · obtain ⟨number, hresolve⟩ : ∃ number, w.view.resolve name = .inside number := by
      generalize w.view.resolve name = v at hbound hiterates ⊢
      cases v with
      | inside number => exact ⟨number, rfl⟩
      | outside n =>
          rw [Event.givesUnbound, Bool.not_eq_eq_eq_not, Bool.not_false] at hbound
          exact absurd hbound hiterates
    cases hvalue : (s.firstVariant? value).isSome with
    | false =>
        apply h.record
        intro u
        rw [marked_gets, ← h.firstVariant?_eq, hvalue, Bool.and_false, Bool.and_false,
          Bool.false_or]
    | true =>
        rw [hresolve, Bool.not_eq_true] at hiterates
        exact h.assign_declared hresolve hiterates hvalue

/-- A loop that is no `for` loop does not count. -/
theorem enter_plain (h : Agrees loops s w) (span : Span) :
    Agrees loops (s.enter .plain span) w := by
  exact { h with outer := h.outer, inner := h.inner }

/-- A `for` loop is one more loop around the point. -/
theorem enter (h : Agrees loops s w) (header : LoopHeader) :
    Agrees (header :: loops) (s.enter header.role header.span) w := by
  refine { h with outer := ?_, inner := ?_ }
  · have houter := h.outer
    simp only [Scope.hasOuter] at houter
    simp [Scope.hasOuter, Scope.enter, houter]
  · have hinner := h.inner
    simp only [Scope.nearestInner?] at hinner
    cases hr : header.role <;> simp [Scope.nearestInner?, Scope.enter, hr, hinner]

/-- The variables that a loop iterates over are bound once more, with marks. -/
theorem iterate (h : Agrees loops s w) {own : Bool} (names : List Name)
    (hown : own = true → ∀ name ∈ names, ∃ number, w.view.resolve name = .inside number) :
    Agrees loops (s.bindAll names true) (w.iterate own names) := by
  induction names generalizing s w with
  | nil => exact h
  | cons name rest ih =>
      have hstep : Agrees loops (s.bind name true)
          { w with view := .iterated name (w.view.resolve name) own :: w.view } := by
        constructor
        case stacked =>
          refine .cons rfl (Stacked.congr h.stacked ?_)
          intro _ number _ hfalse
          exact ⟨(Bool.or_eq_false_iff.mp hfalse).2, rfl⟩
        case formed =>
          exact .iterated rfl (fun htrue => hown htrue name List.mem_cons_self) h.formed
        case fresh => exact h.fresh
        case outside => exact h.outside
        case outer => exact h.outer
        case inner => exact h.inner
      exact ih hstep fun htrue n hn => hown htrue n (List.mem_cons_of_mem _ hn)

/-- There are as many bindings as layers around the point. -/
theorem length_le (h : Agrees loops s w) (h' : Agrees inside t w')
    (hle : w.view.length ≤ w'.view.length) : s.bindings.length ≤ t.bindings.length := by
  rw [← h.stacked.length_eq, ← h'.stacked.length_eq]
  exact hle

/-- **A scope that is left** agrees with the walk that went on from it: its bindings
show the former layers with the marks of the present.  What the loops inside declared
for themselves has not been there before, so nothing is hidden any more that was not. -/
theorem leave (h : Agrees loops s w) (h' : Agrees inside t w') (hext : w.Extends w')
    (hbindings : t'.bindings = (t.leave s).bindings) (hframes : t'.frames = s.frames) :
    Agrees loops t' (w'.leave w) := by
  obtain ⟨new, hview, hown⟩ := hext.view
  have hdrop : t'.bindings = t.bindings.drop new.length := by
    rw [hbindings, Scope.leave, ← h.stacked.length_eq, ← h'.stacked.length_eq, hview,
      List.length_append, Nat.add_sub_cancel]
  constructor
  case stacked =>
    have hstacked := List.forall₂_drop new.length h'.stacked
    rw [← hdrop] at hstacked
    nth_rewrite 2 [hview] at hstacked
    rw [List.drop_left] at hstacked
    apply Stacked.congr hstacked
    intro n number hmem hfalse
    refine ⟨?_, rfl⟩
    have hnew := View.owns_eq_false hown (h.formed.declared_lt hmem)
    rw [hview]
    exact List.any_append.trans (Bool.or_eq_false_iff.mpr ⟨hnew, hfalse⟩)
  case formed => exact h.formed.mono hext.count
  case fresh => exact h'.fresh
  case outside => exact h'.outside
  case outer => rw [Scope.hasOuter, hframes]; exact h.outer
  case inner => rw [Scope.nearestInner?, hframes]; exact h.inner

/-- A declaration is out of place by the rules exactly if it is by the loops around
it. -/
theorem roleProblem?_eq (h : Agrees loops s w) (d : Declaration) :
    Storage.roleProblem? s d = placeProblem? loops d := by
  unfold Storage.roleProblem? placeProblem?
  rw [h.outer, h.inner]
  cases hds : d.declarators with
  | nil => cases d.role <;> rfl
  | cons first rest =>
      cases d.role <;> cases loops.any (·.role == .outer) <;>
        cases loops.find? (·.role == .inner) <;> rfl

end Agrees

/-! ## Simulation -/

/-- A loop whose header assigns at most one variable, or a declaration whose
dimensions do not mention its own names. -/
def RegularSite : MarkerSite → Prop
  | .loop header => HasSingleInit header
  | .declaration d => SizedApart d

/-- A header that assigns at most one variable iterates over that variable. -/
theorem inductionNames_eq_iterated {header : LoopHeader} (h : HasSingleInit header) :
    Storage.inductionNames header.init = iterated header.init := by
  cases hinit : header.init with
  | none => rfl
  | some init =>
      cases init with
      | decl d => rfl
      | expr e =>
          have hsingle := h e hinit
          cases e with
          | assign op target value span =>
              cases value with
              | assign => simp [isSingle] at hsingle
              | _ => rfl
          | comma => simp [isSingle] at hsingle
          | _ => rfl

/-- A walk has gone on from `w` to `w'` while the rules came to the scope `s` and
judged some declarations. -/
structure Simulates (loops : List LoopHeader) (w : Walk) (s : Scope)
    (js : List (Scope × Declaration)) (w' : Walk) : Prop where
  agrees : Agrees loops s w'
  problems : problems (remembered w'.past) =
    problems (remembered w.past) ++ Storage.problemsOfJudged js

/-- No variable has been assigned that the rules do not know. -/
def Walk.KeepsBound (w : Walk) : Prop := ∀ ev ∈ w.past, ev.givesUnbound = false

/-- What holds of a longer past holds of a shorter one. -/
theorem Walk.KeepsBound.mono {w w' : Walk} (h : w'.KeepsBound) (hext : w.Extends w') :
    w.KeepsBound :=
  fun ev hev => h ev (hext.past.subset hev)

namespace Simulates

variable {loops inside : List LoopHeader} {s t : Scope} {js ks : List (Scope × Declaration)}
  {w w' w'' : Walk}

/-- A walk that stands still reports nothing. -/
theorem refl (h : Agrees loops s w) : Simulates loops w s [] w :=
  ⟨h, (List.append_nil _).symm⟩

/-- A walk that goes on twice reports one thing after the other. -/
theorem trans (h : Simulates inside w s js w') (h' : Simulates loops w' t ks w'') :
    Simulates loops w t (js ++ ks) w'' := by
  refine ⟨h'.agrees, ?_⟩
  rw [h'.problems, h.problems, Storage.problemsOfJudged_append, List.append_assoc]

/-- The scope ends that was opened at the start. -/
theorem leave (hs : Simulates inside w' t js w'') (h : Agrees loops s w) (hext : w.Extends w'')
    (hframes : (t.leave s).frames = s.frames) :
    Simulates loops w' (t.leave s) js (w''.leave w) :=
  ⟨h.leave hs.agrees hext rfl hframes, hs.problems⟩

/-- An event that has no problem and marks nothing. -/
theorem record {ev : Event} (hproblem : ev.problem? (remembered w.past) = none)
    (hagrees : Agrees loops t (w.record ev)) : Simulates loops w t [] (w.record ev) := by
  refine ⟨hagrees, ?_⟩
  rw [Walk.record, problems_remembered_cons, hproblem]
  rfl

/-- The dimensions of an array, judged in a scope that gives their names the same
marks. -/
theorem size {w : Walk} (h : Agrees loops t w) (array : Name) (dims : List Expr)
    (hsame : ∀ dim ∈ dims, t.firstVariant? dim = s.firstVariant? dim) :
    Agrees loops t (w.size array dims) ∧
      Lexical.problems (remembered (w.size array dims).past) =
        Lexical.problems (remembered w.past) ++
          dims.filterMap (Storage.boundProblem? s s.variantNames array) := by
  induction dims generalizing w with
  | nil => exact ⟨h, (List.append_nil _).symm⟩
  | cons dim rest ih =>
      have hrecord : Agrees loops t (w.record (.sizes array dim w.view)) :=
        h.record fun _ => rfl
      obtain ⟨hagrees, hproblems⟩ :=
        ih hrecord fun dim' hdim' => hsame dim' (List.mem_cons_of_mem _ hdim')
      have hdim : sizeProblem? (remembered w.past) array dim w.view =
          Storage.boundProblem? s s.variantNames array dim := by
        rw [sizeProblem?, ← h.firstVariant?_eq, hsame dim List.mem_cons_self,
          Storage.boundProblem?_eq_map]
      refine ⟨hagrees, ?_⟩
      rw [List.filterMap_cons, ← hdim]
      refine hproblems.trans ?_
      rw [Walk.record, problems_remembered_cons, Event.problem?]
      cases sizeProblem? (remembered w.past) array dim w.view <;> simp

/-- A declared name: the dimensions of its array, and its binding. -/
theorem declarator {w : Walk} (h : Agrees loops t w) (shared : Bool) (d : Declarator)
    (hsame : shared = true → ∀ dim ∈ d.dims, t.firstVariant? dim = s.firstVariant? dim) :
    Agrees loops (t.bind d.name (d.init.bind t.firstVariant?).isSome) (w.declarator shared d) ∧
      Lexical.problems (remembered (w.declarator shared d).past) =
        Lexical.problems (remembered w.past) ++
          if shared then d.dims.filterMap (Storage.boundProblem? s s.variantNames d.name)
          else [] := by
  have hsize : Agrees loops t (if shared then w.size d.name d.dims else w) ∧
      Lexical.problems (remembered (if shared then w.size d.name d.dims else w).past) =
        Lexical.problems (remembered w.past) ++
          if shared then d.dims.filterMap (Storage.boundProblem? s s.variantNames d.name)
          else [] := by
    cases shared with
    | false => exact ⟨h, (List.append_nil _).symm⟩
    | true => exact size h d.name d.dims (hsame rfl)
  unfold Walk.declarator
  generalize (if shared then w.size d.name d.dims else w) = w' at hsize
  obtain ⟨hagrees, hproblems⟩ := hsize
  cases d.init with
  | none => exact ⟨hagrees.bind d.name (hagrees.fresh _ (Nat.le_refl _)) fun _ _ => rfl, hproblems⟩
  | some value =>
      have hnot : w'.view.reassigns (.inside w'.count) = false := by
        refine Bool.eq_false_iff.mpr fun htrue => Nat.lt_irrefl _ (hagrees.formed.iterates_lt ?_)
        rw [View.iterates_eq_or, htrue, Bool.true_or]
      have hmarked : ∀ v, marked (.gets (.inside w'.count) value w'.view :: w'.past) v =
          (v == .inside w'.count && (t.firstVariant? value).isSome || marked w'.past v) := by
        intro v
        rw [marked_gets, hnot, hagrees.firstVariant?_eq, Bool.not_false, Bool.true_and]
      refine ⟨?_, ?_⟩
      · apply hagrees.bind d.name
        · refine (hmarked _).trans ?_
          rw [hagrees.fresh _ (Nat.le_refl _), beq_self_eq_true, Bool.true_and, Bool.or_false]
          rfl
        · intro v hv
          refine (hmarked v).trans ?_
          rw [beq_eq_false_iff_ne.mpr hv, Bool.false_and, Bool.false_or]
      · exact (problems_remembered_cons ..).trans ((List.append_nil _).trans hproblems)

/-- The names of a declaration, one after the other.  None of the dimensions
mentions a name of the declaration, so each is judged as in the scope in front
of it. -/
theorem declarators {w : Walk} (h : Agrees loops t w) (shared : Bool) (names : List Name)
    (ds : List Declarator) (hnames : ∀ d ∈ ds, d.name ∈ names)
    (hkeep : ∀ name, name ∉ names → t.isVariant name = s.isVariant name)
    (hapart : shared = true →
      ∀ d ∈ ds, ∀ dim ∈ d.dims, ∀ o ∈ dim.occurrences, o.1 ∉ names) :
    Agrees loops (t.declare ds) (ds.foldl (Walk.declarator shared) w) ∧
      Lexical.problems (remembered (ds.foldl (Walk.declarator shared) w).past) =
        Lexical.problems (remembered w.past) ++ if shared then ds.flatMap fun d =>
          d.dims.filterMap (Storage.boundProblem? s s.variantNames d.name) else [] := by
  induction ds generalizing t w with
  | nil => cases shared <;> exact ⟨h, (List.append_nil _).symm⟩
  | cons d rest ih =>
      have hsame : shared = true → ∀ dim ∈ d.dims, t.firstVariant? dim = s.firstVariant? dim := by
        intro hshared dim hdim
        apply Expr.firstOccurrence?_congr
        intro o ho
        exact hkeep o.1 (hapart hshared d List.mem_cons_self dim hdim o ho)
      obtain ⟨hagrees, hproblems⟩ := declarator h shared d hsame
      have hkeep' : ∀ name, name ∉ names →
          (t.bind d.name (d.init.bind t.firstVariant?).isSome).isVariant name =
            s.isVariant name := by
        intro name hname
        have hne : ¬ d.name = name := fun heq => hname (heq ▸ hnames d List.mem_cons_self)
        rw [← hkeep name hname]
        simp [Scope.isVariant, Scope.bind, hne]
      obtain ⟨hagrees', hproblems'⟩ := ih hagrees
        (fun d' hd' => hnames d' (List.mem_cons_of_mem _ hd')) hkeep'
        (fun hshared d' hd' => hapart hshared d' (List.mem_cons_of_mem _ hd'))
      refine ⟨hagrees', ?_⟩
      rw [List.foldl_cons, hproblems', hproblems, List.append_assoc]
      cases shared <;> simp

/-- **A declaration**, with its place, its dimensions and its names. -/
theorem declare {w : Walk} (h : Agrees loops s w) {d : Declaration} (hd : SizedApart d) :
    Simulates loops w (s.declare d.declarators) [(s, d)] (w.declare loops d) := by
  have hrecord : Agrees loops s (w.record (.declares d loops)) := h.record fun _ => rfl
  have hshared : (d.role == .shared) = true → d.role = .shared := fun hrole => by
    simpa using hrole
  obtain ⟨hagrees, hproblems⟩ := declarators (s := s) hrecord (d.role == .shared)
    (d.declarators.map (·.name)) d.declarators (fun d' hd' => List.mem_map_of_mem hd')
    (fun _ _ => rfl) (fun hrole => hd (hshared hrole))
  refine ⟨hagrees, ?_⟩
  rw [Walk.declare, hproblems, Walk.record, problems_remembered_cons, Event.problem?,
    ← h.roleProblem?_eq]
  simp [Storage.problemsOfJudged, Storage.declarationProblems, Storage.boundProblems]

mutual

/-- The assignments of an expression statement. -/
theorem assign : ∀ (e : Expr) {s : Scope} {w : Walk}, Agrees loops s w →
    (w.assign e).KeepsBound → Simulates loops w (Scope.assigned e s) [] (w.assign e)
  | .assign _ target value _, s, w, h, hbound => by
      rw [Walk.assign] at hbound ⊢
      rw [Scope.assigned]
      cases htarget : target.ident? with
      | none =>
          rw [htarget] at hbound
          exact assign value h hbound
      | some name =>
          rw [htarget] at hbound
          have hvalue := assign value h (hbound.mono (Walk.extends_record _ _))
          have hgets := hvalue.agrees.assign name value (hbound _ List.mem_cons_self)
          exact hvalue.trans (record rfl hgets)
  | .comma parts _, _, _, h, hbound => assignList parts h hbound
  | .ident .., _, _, h, _ | .int .., _, _, h, _ | .float .., _, _, h, _ | .char .., _, _, h, _
  | .string .., _, _, h, _ | .unary .., _, _, h, _ | .binary .., _, _, h, _
  | .call .., _, _, h, _ | .index .., _, _, h, _ | .member .., _, _, h, _ | .cast .., _, _, h, _
  | .ternary .., _, _, h, _ | .sizeOfType .., _, _, h, _ => refl h

/-- The assignments of several expressions. -/
theorem assignList : ∀ (es : List Expr) {s : Scope} {w : Walk}, Agrees loops s w →
    (Walk.assignList es w).KeepsBound →
      Simulates loops w (Scope.assignedList es s) [] (Walk.assignList es w)
  | [], _, _, h, _ => refl h
  | e :: rest, _, _, h, hbound => by
      have he := assign e h (hbound.mono (Walk.extends_assignList rest _))
      exact he.trans (assignList rest he.agrees hbound)

end

/-- The init clause of a loop, of which only a declaration counts. -/
theorem init {w : Walk} (h : Agrees loops s w) (init : Option ForInit)
    (hsized : ∀ d, init = some (.decl d) → SizedApart d) :
    Simulates loops w (Storage.aroundLoop init s) (Storage.judgedInit init s)
      (w.init loops init) := by
  match init with
  | some (.decl d) => exact declare h (hsized d rfl)
  | some (.expr _) => exact refl h
  | none => exact refl h

/-- **A loop header** binds its variables once more, inside the loop. -/
theorem enter {w : Walk} (h : Agrees loops s w) {header : LoopHeader}
    (hsized : ∀ d, header.init = some (.decl d) → SizedApart d)
    (hsingle : HasSingleInit header) :
    Simulates (header :: loops) w
      (Storage.insideLoop header (Storage.aroundLoop header.init s))
      (Storage.judgedInit header.init s) (w.enter loops header.init) := by
  have hinit := init h header.init hsized
  refine ⟨?_, hinit.problems⟩
  rw [Storage.insideLoop, inductionNames_eq_iterated hsingle]
  apply (hinit.agrees.enter header).iterate
  intro hown name hname
  obtain ⟨number, hresolve, -⟩ := w.resolve_init loops hown hname
  exact ⟨number, hresolve⟩

mutual

/-- **A statement** of a regular kernel: the walk through it reports what the
rules find in it, and they agree on what is in scope behind it.  The induction is
on the statement; each scope that ends is cut back to a state for which the
agreement was known. -/
theorem stmt : ∀ (st : Stmt) {loops : List LoopHeader} {s : Scope} {w : Walk},
    Agrees loops s w → (w.stmt loops st).KeepsBound →
      (∀ site ∈ st.markerSites, RegularSite site) →
        Simulates loops w (Storage.after st s) (Storage.judged st s) (w.stmt loops st)
  | .decl d _, _, _, _, h, _, hsites => declare h (hsites _ List.mem_cons_self)
  | .expr e _, _, _, _, h, hinside, _ => assign e h hinside
  | .block stmts blockSpan span, _, s, _, h, hbound, hsites => by
      have hstmts := stmtList stmts h hbound hsites
      exact hstmts.leave h (Walk.extends_stmtList stmts _ _)
        (Storage.frames_after (.block stmts blockSpan span) s)
  | .forLoop header body span, loops, s, w, h, hbound, hsites => by
      have hsingle : HasSingleInit header := hsites (.loop header) List.mem_cons_self
      have hsized : ∀ d, header.init = some (.decl d) → SizedApart d := by
        intro d hd
        apply hsites (.declaration d)
        simp [Stmt.markerSites, LoopHeader.initSites, hd]
      have hbodySites : ∀ site ∈ body.markerSites, RegularSite site := fun site hsite =>
        hsites site (List.mem_cons_of_mem _ (List.mem_append_right _ hsite))
      have hinit := init h header.init hsized
      have henter := enter h hsized hsingle
      have hbody := stmt body henter.agrees hbound hbodySites
      have hext := Walk.extends_stmt body (header :: loops) (w.enter loops header.init)
      -- The rules leave the loop and its header one after the other, the walk at once.
      have haround := h.length_le hinit.agrees (w.extends_init loops header.init).length_le
      have hinside := hinit.agrees.length_le hbody.agrees
        (Nat.le_trans (Walk.length_le_enter loops w header.init) hext.length_le)
      exact ⟨h.leave hbody.agrees ((w.extends_enter loops header.init).trans hext)
          (Scope.bindings_leave_leave haround hinside)
          (Storage.frames_after (.forLoop header body span) s),
        (henter.trans hbody).problems⟩
  | .whileLoop c body span, loops, s, w, h, hbound, hsites => by
      have hbody := stmt body (h.enter_plain span) hbound hsites
      exact hbody.leave h (Walk.extends_stmt body loops w)
        (Storage.frames_after (.whileLoop c body span) s)
  | .doWhile body c span, loops, s, w, h, hbound, hsites => by
      have hbody := stmt body (h.enter_plain span) hbound hsites
      exact hbody.leave h (Walk.extends_stmt body loops w)
        (Storage.frames_after (.doWhile body c span) s)
  | .ifThen c a span, loops, s, w, h, hbound, hsites => by
      have ha := stmt a h hbound hsites
      exact ha.leave h (Walk.extends_stmt a loops w) (Storage.frames_after (.ifThen c a span) s)
  | .switch c body span, loops, s, w, h, hbound, hsites => by
      have hbody := stmt body h hbound hsites
      exact hbody.leave h (Walk.extends_stmt body loops w)
        (Storage.frames_after (.switch c body span) s)
  | .ifElse c a b span, loops, s, w, h, hbound, hsites => by
      have hbExt := Walk.extends_stmt b loops ((w.stmt loops a).leave w)
      have hboundA : (w.stmt loops a).KeepsBound := fun ev hev =>
        hbound ev (hbExt.past.subset hev)
      have ha := stmt a h hboundA fun site hsite => hsites site (List.mem_append_left _ hsite)
      have ha' := ha.leave h (Walk.extends_stmt a loops w)
        (Storage.frames_after (.ifThen c a span) s)
      have hb := stmt b ha'.agrees hbound fun site hsite =>
        hsites site (List.mem_append_right _ hsite)
      exact (ha'.trans hb).leave h ((Walk.extends_stmt a loops w).leave.trans hbExt)
        (Storage.frames_after (.ifElse c a b span) s)
  | .caseLabel .., _, _, _, h, _, _ | .breakJump .., _, _, _, h, _, _
  | .continueJump .., _, _, _, h, _, _ | .returnJump .., _, _, _, h, _, _
  | .empty .., _, _, _, h, _, _ => refl h

/-- The same for a list of statements. -/
theorem stmtList : ∀ (stmts : List Stmt) {loops : List LoopHeader} {s : Scope} {w : Walk},
    Agrees loops s w → (Walk.stmtList loops stmts w).KeepsBound →
      (∀ site ∈ Stmt.markerSitesList stmts, RegularSite site) →
        Simulates loops w (Storage.afterList stmts s) (Storage.judgedList stmts s)
          (Walk.stmtList loops stmts w)
  | [], _, _, _, h, _, _ => refl h
  | st :: rest, loops, _, w, h, hbound, hsites => by
      have hst := stmt st h (hbound.mono (Walk.extends_stmtList rest loops _))
        fun site hsite => hsites site (List.mem_append_left _ hsite)
      exact hst.trans (stmtList rest hst.agrees hbound fun site hsite =>
        hsites site (List.mem_append_right _ hsite))

end

end Simulates

/-! ## Whole kernels -/

/-- At the start of a kernel its parameters are in scope, and none of them changes. -/
theorem agrees_start (kernel : Function) : Agrees [] (Storage.atStart kernel) (start kernel) := by
  have hparams : ∀ (ps : List Param) {s : Scope} {w : Walk}, Agrees [] s w →
      Agrees [] (s.bindAll (ps.map (·.name)) false)
        (ps.foldl (fun w p => w.introduce p.name) w) := by
    intro ps
    induction ps with
    | nil => exact fun h => h
    | cons p rest ih =>
        intro s w h
        exact ih (h.bind p.name (h.fresh _ (Nat.le_refl _)) fun _ _ => rfl)
  apply hparams kernel.params
  exact ⟨.nil, .nil, fun _ _ => rfl, fun _ => rfl, rfl, rfl⟩

/-- Nothing has happened yet at the start of a kernel. -/
theorem past_start (kernel : Function) : (start kernel).past = [] := by
  have hparams : ∀ (ps : List Param) (w : Walk),
      (ps.foldl (fun w p => w.introduce p.name) w).past = w.past := by
    intro ps
    induction ps with
    | nil => exact fun _ => rfl
    | cons p rest ih => exact fun w => ih _
  exact hparams kernel.params _

/-- Every marker site of a regular kernel's body is regular. -/
theorem Regular.sites {kernel : Function} (h : Regular kernel) :
    ∀ site ∈ Stmt.markerSitesList kernel.body.stmts, RegularSite site := by
  intro site hsite
  cases site with
  | loop header => exact h.iterated header (Stmt.mem_loopsList_of_markerSitesList _ hsite)
  | declaration d =>
      exact h.sized d (List.mem_filterMap.mpr ⟨.declaration d, hsite, rfl⟩)

end Lexical

/-- **Shared and exclusive declarations follow lexical scope**, but for what the rules
forget.  In a regular kernel they report, in source order, each declaration that is
out of place and each dimension of a shared array that mentions a variable which
changes without the forgotten values.  That is all that is to be reported exactly if
no dimension owes its problem to a forgotten value; in particular if no variable gets
a value inside a loop whose init expression assigns it. -/
theorem storage_lexical_iff (s : Subject) (h : Lexical.Regular s.kernel) :
    let past := (Lexical.walk s.kernel).past
    let found := (Stage.storage s (.empty .all)).problems
    found = Lexical.problems (Lexical.remembered past) ∧
      (found = Lexical.problems past ↔ Lexical.OwesNothing past) ∧
      ((∀ ev ∈ past, ev.isForgotten = false) → found = Lexical.problems past) := by
  intro past found
  have hfound : found = Lexical.problems (Lexical.remembered past) := by
    have hstmts := Lexical.Simulates.stmtList s.kernel.body.stmts
      (Lexical.agrees_start s.kernel) h.assigned h.sites
    have hproblems := hstmts.problems
    rw [Lexical.past_start] at hproblems
    exact (Stage.storage_finds s).all_eq.trans hproblems.symm
  refine ⟨hfound, ?_, fun hnone => ?_⟩
  · rw [hfound]
    exact Lexical.problems_remembered_iff past
  · rw [hfound, Lexical.remembered_eq_self hnone]

/-- A kernel whose only parameter is the size of a group.  The number of the
group is copied twice, the second time in a block of its own, where it is
shadowed afterwards; and an inner loop iterates over the parameter. -/
def Function.shadowingSample : Function :=
  let size : Name := ⟨1⟩
  let group : Name := ⟨2⟩
  let copy : Name := ⟨3⟩
  let twice : Name := ⟨4⟩
  let place (n : Nat) : Span := ⟨n, n + 1⟩
  let value (name : Name) (n : Nat) : Expr := .ident name (place n)
  let declaration (markers : List MarkerKind) (name : Name) (dims : List Expr)
      (init : Option Expr) (n : Nat) : Declaration :=
    ⟨{ base := .int }, [⟨name, dims, init, place n⟩], markers.map (Marker.mk · (place n)), place n⟩
  let loop (kind : MarkerKind) (init : ForInit) (body : List Stmt) (n : Nat) : Stmt :=
    .forLoop ⟨some init, none, none, [⟨kind, place n⟩], place n⟩
      (.block body (place n) (place n)) (place n)
  let assign (target : Name) (e : Expr) (n : Nat) : Expr :=
    .assign .assign (value target n) e (place n)
  let shadow : Stmt := .block
    [.expr (assign twice (value copy 30) 30) (place 30),
     .decl (declaration [] group [] (some (value size 31)) 31) (place 31),
     .decl (declaration [.shared] ⟨5⟩ [value group 32] none 32) (place 32)] (place 30) (place 30)
  let wide : Declaration := declaration [.shared] ⟨6⟩
    [value size 40, .binary .add (value twice 41) (value group 42) (place 41)] none 40
  let inner : Stmt := loop .inner (.expr (assign size (.int 0 (place 50)) 50))
    [.decl (declaration [.exclusive] ⟨7⟩ [] none 51) (place 51),
     .decl (declaration [.shared] ⟨8⟩ [value size 53] none 52) (place 52)] 50
  ⟨.empty, [⟨size, { base := .int }, place 0⟩], { base := .void },
    ⟨[loop .outer (.decl (declaration [] group [] none 10))
        [.decl (declaration [] copy [] (some (value group 11)) 11) (place 11),
         .decl (declaration [] twice [] none 12) (place 12),
         shadow, .decl wide (place 40), inner,
         .decl (declaration [.shared] ⟨9⟩ [value size 60] none 60) (place 60)] 10,
      .decl (declaration [.exclusive] ⟨10⟩ [] none 70) (place 70)], place 0⟩,
    [⟨.kernel, place 0⟩], place 0⟩

/-- The copy of a copy counts, although it was made in a block that has ended;
the variable that shadows the number of the group does not; and the parameter
changes in the loop that iterates over it, and not behind it.  It gets no value in
the body of that loop, so nothing is forgotten. -/
theorem storage_lexical_iff_shadowingSample :
    let found := (Stage.storage ⟨.shadowingSample, .initial, .empty⟩ (.empty .all)).problems
    Lexical.Regular .shadowingSample ∧
      found = Lexical.problems (Lexical.walk .shadowingSample).past ∧
      found =
        [.variantBound ⟨41, 42⟩ ⟨6⟩ ⟨4⟩ ⟨41, 42⟩, .exclusiveInsideInner ⟨51, 52⟩ ⟨7⟩ ⟨50, 51⟩,
         .sharedInsideInner ⟨52, 53⟩ ⟨8⟩ ⟨50, 51⟩, .variantBound ⟨53, 54⟩ ⟨8⟩ ⟨1⟩ ⟨53, 54⟩,
         .exclusiveOutsideOuter ⟨70, 71⟩ ⟨10⟩] := by
  have hregular : Lexical.Regular .shadowingSample := ⟨by decide, by decide, by decide⟩
  have hiff := storage_lexical_iff ⟨.shadowingSample, .initial, .empty⟩ hregular
  have hfound := hiff.2.2 (by decide)
  exact ⟨hregular, hfound, hfound.trans (by decide)⟩

/-- A kernel with a variable that gets the number of the group in a plain loop, and
sizes a shared array behind the loop.  The loop may have an init clause. -/
def Function.reassigningSample (init : Option ForInit) : Function :=
  let group : Name := ⟨1⟩
  let copy : Name := ⟨2⟩
  let place (n : Nat) : Span := ⟨n, n + 1⟩
  let declaration (markers : List MarkerKind) (name : Name) (dims : List Expr) (n : Nat) :
      Declaration :=
    ⟨{ base := .int }, [⟨name, dims, none, place n⟩], markers.map (Marker.mk · (place n)), place n⟩
  let loop (kinds : List MarkerKind) (init : Option ForInit) (body : List Stmt) (n : Nat) : Stmt :=
    .forLoop ⟨init, none, none, kinds.map (Marker.mk · (place n)), place n⟩
      (.block body (place n) (place n)) (place n)
  let copying : Stmt :=
    .expr (.assign .assign (.ident copy (place 31)) (.ident group (place 32)) (place 31)) (place 31)
  ⟨.empty, [], { base := .void },
    ⟨[loop [.outer] (some (.decl (declaration [] group [] 10)))
        [.decl (declaration [] copy [] 20) (place 20), loop [] init [copying] 30,
         .decl (declaration [.shared] ⟨3⟩ [.ident copy (place 41)] 40) (place 40),
         loop [.inner] (some (.decl (declaration [] ⟨4⟩ [] 50))) [] 50] 10], place 0⟩,
    [⟨.kernel, place 0⟩], place 0⟩

/-- If the plain loop assigns the variable in its header as well, its value from the
body is forgotten, and the shared array behind the loop is not reported.  Without an
init clause it is. -/
theorem storage_lexical_ne :
    let found (kernel : Function) : List Problem :=
      (Stage.storage ⟨kernel, .initial, .empty⟩ (.empty .all)).problems
    let counting : Function := .reassigningSample
      (some (.expr (.assign .assign (.ident ⟨2⟩ ⟨28, 29⟩) (.int 0 ⟨29, 30⟩) ⟨28, 30⟩)))
    let bound : Problem := .variantBound ⟨41, 42⟩ ⟨3⟩ ⟨2⟩ ⟨41, 42⟩
    Lexical.Regular counting ∧ found counting = [] ∧
      Lexical.problems (Lexical.walk counting).past = [bound] ∧
      found (.reassigningSample none) = [bound] :=
  ⟨⟨by decide, by decide, by decide⟩, by decide, by decide, by decide⟩

end KernelCheck
