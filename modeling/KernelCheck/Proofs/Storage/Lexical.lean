import KernelCheck.Rule.Markers
import KernelCheck.Rule.Storage

/-!
# Shared bounds by lexical scope

What the rules on shared and exclusive variables ask for, said without a stack of
bindings.

Every variable of a kernel has a number of its own: a parameter, and a declared
name.  By block scoping a name means, at every point, the innermost variable of
that name, or a variable from outside the kernel.  A loop iterates over variables
that are there already: those that its header declares, or the one that its init
expression assigns.  A variable changes from iteration to iteration at all points
inside a loop that iterates over it, and from the time on when it gets a value
that mentions a variable which changes there.  It gets its values from its declaration
and from expression statements; what a loop header assigns makes it change inside the
loop alone.  No value is ever taken back; when a block ends, its variables are just no
longer visible.

* `Lexical.View` — what encloses a point, and what a name means there.
* `Lexical.Event` — what happens in a kernel, with all names still in place and
  with what they mean.
* `Lexical.loopVariant` — a variable changes at a point, after what has happened
  so far.
* `Lexical.problems` — what is to be reported of the events of a kernel.
* `Lexical.walk` — the events of a kernel in source order.
* `Lexical.Regular` — the kernels in which every assignment is to a variable that
  the rules know.
* `Lexical.remembered` — the events without the values that a variable gets
  inside a loop whose init expression assigns it.  The rules forget them.
-/

namespace KernelCheck.Lexical

/-- A variable of the kernel, which has a number, or one that is declared outside
the kernel. -/
inductive Variable where
  | inside (number : Nat)
  | outside (name : Name)
  deriving DecidableEq

/-- What encloses a point of a kernel. -/
inductive Layer where
  /-- A variable is declared. -/
  | declared (name : Name) (number : Nat)
  /-- A loop iterates over a variable, which it calls by this name.  The variable
  is its own if its header declares it. -/
  | iterated (name : Name) (v : Variable) (own : Bool)
  deriving DecidableEq

/-- All that encloses a point, innermost first. -/
abbrev View := List Layer

namespace View

/-- The variable that a name means: the innermost one that is declared under it. -/
def resolve : View → Name → Variable
  | [], name => .outside name
  | .declared other number :: rest, name =>
    if other = name then .inside number else View.resolve rest name
  | .iterated .. :: rest, name => View.resolve rest name

/-- A loop around the point, which iterates over the variables of these names. -/
def iterate (view : View) (own : Bool) (names : List Name) : View :=
  names.foldl (fun view name => .iterated name (view.resolve name) own :: view) view

/-- A loop around the point iterates over the variable. -/
def iterates (view : View) (v : Variable) : Bool :=
  view.any fun
    | .iterated _ w _ => w == v
    | .declared .. => false

/-- The init expression of a loop around the point assigns the variable. -/
def reassigns (view : View) (v : Variable) : Bool :=
  view.any fun
    | .iterated _ w own => !own && w == v
    | .declared .. => false

end View

/-- What happens in a kernel. -/
inductive Event where
  /-- A variable gets a value, in which names mean what they mean at this point. -/
  | gets (v : Variable) (value : Expr) (view : View)
  /-- A declaration stands inside these `for` loops, the innermost first. -/
  | declares (d : Declaration) (loops : List LoopHeader)
  /-- A dimension of a shared array is evaluated at this point. -/
  | sizes (array : Name) (dim : Expr) (view : View)

/-- At a point a variable changes from iteration to iteration, after what has
happened so far; the latest event comes first. -/
def loopVariant : List Event → View → Variable → Bool
  | [], view, w => view.iterates w
  | .gets v value here :: past, view, w =>
    (w == v && value.occurrences.any fun o => loopVariant past here (here.resolve o.1)) ||
      loopVariant past view w
  | _ :: past, view, w => loopVariant past view w

/-- The problem with a shared or exclusive declaration inside some loops: it has
to stand below an outer loop and below no inner one.  A declaration is known by
its first name. -/
def placeProblem? (loops : List LoopHeader) (d : Declaration) : Option Problem :=
  match d.role, d.declarators with
  | .plain, _ | _, [] => none
  | .shared, first :: _ =>
    if loops.any (·.role == .outer) then
      (loops.find? (·.role == .inner)).map fun inner =>
        .sharedInsideInner d.span first.name inner.span
    else some (.sharedOutsideOuter d.span first.name)
  | .exclusive, first :: _ =>
    if loops.any (·.role == .outer) then
      (loops.find? (·.role == .inner)).map fun inner =>
        .exclusiveInsideInner d.span first.name inner.span
    else some (.exclusiveOutsideOuter d.span first.name)

/-- The leftmost mention of a variable that changes. -/
def firstVariant? (past : List Event) (view : View) (e : Expr) : Option (Name × Span) :=
  e.occurrences.find? fun o => loopVariant past view (view.resolve o.1)

/-- The problem with a dimension: the leftmost mention of a variable that changes. -/
def sizeProblem? (past : List Event) (array : Name) (dim : Expr) (view : View) :
    Option Problem :=
  (firstVariant? past view dim).map fun o => .variantBound dim.span array o.1 o.2

/-- The problem with an event, after what has happened before it. -/
def Event.problem? (past : List Event) : Event → Option Problem
  | .gets .. => none
  | .declares d loops => placeProblem? loops d
  | .sizes array dim view => sizeProblem? past array dim view

/-- The problems with all events, in the order of the events; the latest event
comes first. -/
def problems : List Event → List Problem
  | [] => []
  | ev :: past => problems past ++ (ev.problem? past).toList

/-! ## What the rules forget -/

/-- A variable gets a value inside a loop whose init expression assigns it. -/
def Event.isForgotten : Event → Bool
  | .gets v _ view => view.reassigns v
  | _ => false

/-- The events without the values that the rules forget. -/
def remembered (past : List Event) : List Event :=
  past.filter fun ev => !ev.isForgotten

/-- No dimension has its problem from a forgotten value: the leftmost variable that
changes in it changes without the forgotten values as well. -/
def OwesNothing : List Event → Prop
  | [] => True
  | .sizes _ dim view :: past =>
    (∀ o, firstVariant? past view dim = some o →
      loopVariant (remembered past) view (view.resolve o.1) = true) ∧ OwesNothing past
  | _ :: past => OwesNothing past

/-! ## The events of a kernel -/

/-- What is known at a point: what encloses it, how many variables there have
been, and what has happened, the latest event first. -/
structure Walk where
  view : View
  count : Nat
  past : List Event

namespace Walk

/-- Something happens. -/
def record (w : Walk) (ev : Event) : Walk := { w with past := ev :: w.past }

/-- A new variable comes into scope. -/
def introduce (w : Walk) (name : Name) : Walk :=
  { w with view := .declared name w.count :: w.view, count := w.count + 1 }

/-- The scope ends that was opened when the walk was at `outer`. -/
def leave (w outer : Walk) : Walk := { w with view := outer.view }

/-- The dimensions of an array are evaluated from left to right. -/
def size (w : Walk) (array : Name) (dims : List Expr) : Walk :=
  dims.foldl (fun w dim => w.record (.sizes array dim w.view)) w

/-- One declared name.  Its dimensions see the names declared before it, and so
does its initial value, which is evaluated before the name itself is in scope. -/
def declarator (shared : Bool) (w : Walk) (d : Declarator) : Walk :=
  let w := if shared then w.size d.name d.dims else w
  match d.init with
  | none => w.introduce d.name
  | some value => (w.introduce d.name).record (.gets (.inside w.count) value w.view)

/-- A declaration inside some loops. -/
def declare (loops : List LoopHeader) (w : Walk) (d : Declaration) : Walk :=
  d.declarators.foldl (declarator (d.role == .shared)) (w.record (.declares d loops))

mutual

/-- The assignments of an expression statement: an assignment, after those in its
value, or each assignment of a comma list. -/
def assign : Expr → Walk → Walk
  | .assign _ target value _, w =>
    let w := assign value w
    match target.ident? with
    | none => w
    | some name => w.record (.gets (w.view.resolve name) value w.view)
  | .comma parts _, w => assignList parts w
  | _, w => w

/-- The same for several expressions. -/
def assignList : List Expr → Walk → Walk
  | [], w => w
  | e :: rest, w => assignList rest (assign e w)

end

/-- Into the body of a loop that iterates over these variables. -/
def iterate (w : Walk) (own : Bool) (names : List Name) : Walk :=
  { w with view := w.view.iterate own names }

end Walk

mutual

/-- The variables that the init expression of a loop assigns: by itself, by each
part of a comma list, or by each link of a chain of assignments. -/
def initTargets : Expr → List Name
  | .assign _ target (.assign op target' value s) _ =>
    target.ident?.toList ++ initTargets (.assign op target' value s)
  | .assign _ target _ _ => target.ident?.toList
  | .comma parts _ => initTargetsList parts
  | _ => []

/-- The same for several expressions. -/
def initTargetsList : List Expr → List Name
  | [] => []
  | e :: rest => initTargets e ++ initTargetsList rest

end

/-- The variables that a loop iterates over: those that its init clause declares
or assigns. -/
def iterated : Option ForInit → List Name
  | none => []
  | some (.decl d) => d.declarators.map (·.name)
  | some (.expr e) => initTargets e

/-- The loop declares the variables itself that it iterates over. -/
def declaresOwn : Option ForInit → Bool
  | some (.decl _) => true
  | _ => false

namespace Walk

/-- The init clause of a loop inside some loops; a declaration in it stands
outside the loop itself. -/
def init (loops : List LoopHeader) (w : Walk) : Option ForInit → Walk
  | some (.decl d) => w.declare loops d
  | _ => w

/-- From in front of a loop into its body. -/
def enter (loops : List LoopHeader) (w : Walk) (init : Option ForInit) : Walk :=
  (w.init loops init).iterate (declaresOwn init) (iterated init)

mutual

/-- A statement inside some loops. -/
def stmt (loops : List LoopHeader) : Stmt → Walk → Walk
  | .decl d _, w => w.declare loops d
  | .expr e _, w => w.assign e
  | .block stmts _ _, w => (stmtList loops stmts w).leave w
  | .forLoop header body _, w =>
    (stmt (header :: loops) body (w.enter loops header.init)).leave w
  | .whileLoop _ body _, w | .doWhile body _ _, w | .switch _ body _, w | .ifThen _ body _, w =>
    (stmt loops body w).leave w
  | .ifElse _ a b _, w => (stmt loops b ((stmt loops a w).leave w)).leave w
  | .caseLabel .., w | .breakJump .., w | .continueJump .., w | .returnJump .., w
  | .empty .., w => w

/-- The statements of a block. -/
def stmtList (loops : List LoopHeader) : List Stmt → Walk → Walk
  | [], w => w
  | s :: rest, w => stmtList loops rest (stmt loops s w)

end

end Walk

/-- The start of a kernel, where its parameters are in scope. -/
def start (kernel : Function) : Walk :=
  kernel.params.foldl (fun w p => w.introduce p.name) ⟨[], 0, []⟩

/-- The whole of a kernel. -/
def walk (kernel : Function) : Walk :=
  (start kernel).stmtList [] kernel.body.stmts

/-! ## What a walk keeps -/

/-- A walk that has gone on: what encloses a point still does, inside what is new,
and what happened has happened.  A loop that is new declares its own variables
anew. -/
structure Walk.Extends (w w' : Walk) : Prop where
  view : ∃ new, w'.view = new ++ w.view ∧
    ∀ name v, .iterated name v true ∈ new → ∃ number, v = .inside number ∧ w.count ≤ number
  past : w.past <:+ w'.past
  count : w.count ≤ w'.count

/-- The layers of a loop, one for each variable that it iterates over: they do not
change what a name means. -/
theorem View.iterate_eq_append (view : View) (own : Bool) (names : List Name) :
    view.iterate own names =
      (names.map fun name => .iterated name (view.resolve name) own).reverse ++ view := by
  unfold View.iterate
  induction names generalizing view with
  | nil => rfl
  | cons first rest ih =>
      rw [List.foldl_cons, ih, List.map_cons, List.reverse_cons, List.append_assoc]
      rfl

namespace Walk

variable {w w' w'' : Walk}

/-- A walk that stands still. -/
theorem Extends.refl (w : Walk) : w.Extends w :=
  ⟨⟨[], rfl, fun _ _ h => by cases h⟩, List.suffix_rfl, Nat.le_refl _⟩

/-- A walk that goes on twice. -/
theorem Extends.trans (h : w.Extends w') (h' : w'.Extends w'') : w.Extends w'' := by
  obtain ⟨new, hview, hown⟩ := h.view
  obtain ⟨new', hview', hown'⟩ := h'.view
  refine ⟨⟨new' ++ new, by rw [hview', hview, List.append_assoc], ?_⟩,
    h.past.trans h'.past, Nat.le_trans h.count h'.count⟩
  intro name v hmem
  rcases List.mem_append.mp hmem with hmem | hmem
  · obtain ⟨number, hv, hle⟩ := hown' name v hmem
    exact ⟨number, hv, Nat.le_trans h.count hle⟩
  · exact hown name v hmem

/-- An event only adds to the past. -/
theorem extends_record (w : Walk) (ev : Event) : w.Extends (w.record ev) :=
  ⟨(Extends.refl w).view, List.suffix_cons ev w.past, Nat.le_refl _⟩

/-- A new variable stands inside all that was there. -/
theorem extends_introduce (w : Walk) (name : Name) : w.Extends (w.introduce name) := by
  refine ⟨⟨[.declared name w.count], rfl, ?_⟩, List.suffix_rfl, Nat.le_succ _⟩
  intro _ _ hmem
  simp at hmem

/-- Behind a scope the walk is back where it was, with a longer past. -/
theorem Extends.leave (h : w.Extends w') : w.Extends (w'.leave w) :=
  ⟨(Extends.refl w).view, h.past, h.count⟩

/-- A walk that goes on is inside no fewer layers. -/
theorem Extends.length_le (h : w.Extends w') : w.view.length ≤ w'.view.length := by
  obtain ⟨new, hview, -⟩ := h.view
  rw [hview, List.length_append]
  exact Nat.le_add_left _ _

/-- Steps that each go on go on together. -/
theorem extends_foldl {α : Type} (step : Walk → α → Walk) (xs : List α)
    (h : ∀ (w : Walk) (x : α), w.Extends (step w x)) (w : Walk) : w.Extends (xs.foldl step w) := by
  induction xs generalizing w with
  | nil => exact Extends.refl w
  | cons x rest ih => exact (h w x).trans (ih (step w x))

/-- The dimensions of an array only add to the past. -/
theorem extends_size (w : Walk) (array : Name) (dims : List Expr) :
    w.Extends (w.size array dims) :=
  extends_foldl _ dims (fun w dim => w.extends_record (.sizes array dim w.view)) w

/-- A declared name stands inside all that was there. -/
theorem extends_declarator (shared : Bool) (w : Walk) (d : Declarator) :
    w.Extends (w.declarator shared d) := by
  have hsize : w.Extends (if shared then w.size d.name d.dims else w) := by
    split
    · exact w.extends_size d.name d.dims
    · exact Extends.refl w
  unfold declarator
  cases d.init with
  | none => exact hsize.trans (extends_introduce _ d.name)
  | some value => exact (hsize.trans (extends_introduce _ d.name)).trans (extends_record _ _)

/-- The names of a declaration stand inside all that was there. -/
theorem extends_declare (loops : List LoopHeader) (w : Walk) (d : Declaration) :
    w.Extends (w.declare loops d) :=
  (w.extends_record (.declares d loops)).trans
    (extends_foldl _ d.declarators (extends_declarator _) _)

/-- An init clause stands inside all that was there. -/
theorem extends_init (loops : List LoopHeader) (w : Walk) (init : Option ForInit) :
    w.Extends (w.init loops init) := by
  match init with
  | some (.decl d) => exact w.extends_declare loops d
  | some (.expr _) => exact Extends.refl w
  | none => exact Extends.refl w

/-- A dimension does not change what encloses a point. -/
theorem view_size (w : Walk) (array : Name) (dims : List Expr) :
    (w.size array dims).view = w.view := by
  unfold size
  induction dims generalizing w with
  | nil => rfl
  | cons dim rest ih => exact ih _

/-- Behind a declarator its name means a new variable, and all other names mean
what they meant. -/
theorem resolve_declarator (shared : Bool) (w : Walk) (d : Declarator) (name : Name) :
    ∃ number, w.count ≤ number ∧ (w.declarator shared d).view.resolve name =
      if d.name = name then .inside number else w.view.resolve name := by
  have hview : (if shared then w.size d.name d.dims else w).view = w.view := by
    split
    · exact w.view_size d.name d.dims
    · rfl
  have hcount : w.count ≤ (if shared then w.size d.name d.dims else w).count := by
    split
    · exact (w.extends_size d.name d.dims).count
    · exact Nat.le_refl _
  refine ⟨_, hcount, ?_⟩
  rw [← hview]
  unfold declarator
  cases d.init <;> rfl

/-- Behind declarators each of their names means a variable that was not there in
front of them. -/
theorem resolve_declarators (shared : Bool) (ds : List Declarator) {w : Walk} {count : Nat}
    (hcount : count ≤ w.count) {name : Name}
    (h : name ∈ ds.map (·.name) ∨ ∃ number, w.view.resolve name = .inside number ∧
      count ≤ number) :
    ∃ number, (ds.foldl (declarator shared) w).view.resolve name = .inside number ∧
      count ≤ number := by
  induction ds generalizing w with
  | nil =>
      rcases h with h | h
      · cases h
      · exact h
  | cons d rest ih =>
      obtain ⟨number, hle, hresolve⟩ := resolve_declarator shared w d name
      apply ih (Nat.le_trans hcount (extends_declarator shared w d).count)
      by_cases hname : d.name = name
      · rw [if_pos hname] at hresolve
        exact .inr ⟨number, hresolve, Nat.le_trans hcount hle⟩
      · rw [if_neg hname] at hresolve
        rw [hresolve]
        rcases h with h | h
        · rcases List.mem_cons.mp h with rfl | h
          · exact absurd rfl hname
          · exact .inl h
        · exact .inr h

/-- A name that the init clause of a loop declares means a variable that was not
there in front of the loop. -/
theorem resolve_init (loops : List LoopHeader) (w : Walk) {init : Option ForInit} {name : Name}
    (hown : declaresOwn init = true) (hname : name ∈ iterated init) :
    ∃ number, (w.init loops init).view.resolve name = .inside number ∧ w.count ≤ number := by
  match init with
  | some (.decl d) =>
      exact resolve_declarators _ d.declarators (w := w.record (.declares d loops))
        (Nat.le_refl _) (.inl hname)
  | some (.expr _) | none => cases hown

/-- The layers of a loop stand inside all that was there, if the variables that it
declares for itself were not. -/
theorem Extends.iterate (h : w.Extends w') {own : Bool} {names : List Name}
    (hown : own = true → ∀ name ∈ names,
      ∃ number, w'.view.resolve name = .inside number ∧ w.count ≤ number) :
    w.Extends (w'.iterate own names) := by
  obtain ⟨new, hview, hnew⟩ := h.view
  let layers : View := (names.map fun name => .iterated name (w'.view.resolve name) own).reverse
  have hlayers : (w'.iterate own names).view = layers ++ new ++ w.view := by
    rw [List.append_assoc, ← hview]
    exact w'.view.iterate_eq_append own names
  refine ⟨⟨layers ++ new, hlayers, ?_⟩, h.past, h.count⟩
  intro name v hmem
  rcases List.mem_append.mp hmem with hmem | hmem
  · obtain ⟨n, hn, heq⟩ := List.mem_map.mp (List.mem_reverse.mp hmem)
    obtain ⟨-, rfl, hdeclares⟩ := Layer.iterated.inj heq
    exact hown hdeclares n hn
  · exact hnew name v hmem

/-- A loop header stands inside all that was there. -/
theorem extends_enter (loops : List LoopHeader) (w : Walk) (init : Option ForInit) :
    w.Extends (w.enter loops init) :=
  (w.extends_init loops init).iterate fun hown _ hname => w.resolve_init loops hown hname

/-- The body of a loop is inside no fewer layers than its init clause. -/
theorem length_le_enter (loops : List LoopHeader) (w : Walk) (init : Option ForInit) :
    (w.init loops init).view.length ≤ (w.enter loops init).view.length := by
  rw [enter, Walk.iterate, View.iterate_eq_append, List.length_append]
  exact Nat.le_add_left _ _

mutual

/-- An expression statement only adds to the past. -/
theorem extends_assign : ∀ (e : Expr) (w : Walk), w.Extends (w.assign e)
  | .assign _ target value _, w => by
      have hvalue := extends_assign value w
      rw [assign]
      cases target.ident? with
      | none => exact hvalue
      | some name => exact hvalue.trans (extends_record _ _)
  | .comma parts _, w => extends_assignList parts w
  | .ident .., w | .int .., w | .float .., w | .char .., w | .string .., w | .unary .., w
  | .binary .., w | .call .., w | .index .., w | .member .., w | .cast .., w | .ternary .., w
  | .sizeOfType .., w => Extends.refl w

/-- The same for several expressions. -/
theorem extends_assignList : ∀ (es : List Expr) (w : Walk), w.Extends (assignList es w)
  | [], w => Extends.refl w
  | e :: rest, w => (extends_assign e w).trans (extends_assignList rest _)

end

mutual

/-- A statement only goes on with a walk. -/
theorem extends_stmt : ∀ (st : Stmt) (loops : List LoopHeader) (w : Walk),
    w.Extends (w.stmt loops st)
  | .decl d _, loops, w => w.extends_declare loops d
  | .expr e _, _, w => extends_assign e w
  | .block stmts _ _, loops, w => (extends_stmtList stmts loops w).leave
  | .forLoop header body _, loops, w =>
      ((w.extends_enter loops header.init).trans (extends_stmt body (header :: loops) _)).leave
  | .whileLoop _ body _, loops, w | .doWhile body _ _, loops, w | .switch _ body _, loops, w
  | .ifThen _ body _, loops, w => (extends_stmt body loops w).leave
  | .ifElse _ a b _, loops, w => by
      have ha : w.Extends ((w.stmt loops a).leave w) := (extends_stmt a loops w).leave
      exact (ha.trans (extends_stmt b loops _)).leave
  | .caseLabel .., _, w | .breakJump .., _, w | .continueJump .., _, w | .returnJump .., _, w
  | .empty .., _, w => Extends.refl w

/-- The same for a list of statements. -/
theorem extends_stmtList : ∀ (stmts : List Stmt) (loops : List LoopHeader) (w : Walk),
    w.Extends (stmtList loops stmts w)
  | [], _, w => Extends.refl w
  | st :: rest, loops, w => (extends_stmt st loops w).trans (extends_stmtList rest loops _)

end

end Walk

/-! ## Regular kernels -/

/-- An assignment to a variable that is declared outside the kernel, and over which
no loop around it iterates. -/
def Event.givesUnbound : Event → Bool
  | .gets (.outside name) _ view => !view.iterates (.outside name)
  | _ => false

/-- No dimension of a shared declaration mentions a name of that declaration. -/
def SizedApart (d : Declaration) : Prop :=
  d.role = .shared → ∀ array ∈ d.declarators, ∀ dim ∈ array.dims, ∀ o ∈ dim.occurrences,
    o.1 ∉ d.declarators.map (·.name)

instance (d : Declaration) : Decidable (SizedApart d) :=
  inferInstanceAs (Decidable (d.role = .shared → ∀ array ∈ d.declarators, ∀ dim ∈ array.dims,
    ∀ o ∈ dim.occurrences, o.1 ∉ d.declarators.map (·.name)))

/-- An init expression is no comma list and no chain of assignments. -/
def isSingle : Expr → Bool
  | .comma .. => false
  | .assign _ _ (.assign ..) _ => false
  | _ => true

/-- The init clause of a loop is a declaration, or assigns at most one variable. -/
def HasSingleInit (h : LoopHeader) : Prop :=
  ∀ e, h.init = some (.expr e) → isSingle e = true

instance (h : LoopHeader) : Decidable (HasSingleInit h) :=
  match hinit : h.init with
  | some (.expr e) =>
    decidable_of_iff (isSingle e = true) (by simp [HasSingleInit, hinit])
  | some (.decl _) => isTrue (by simp [HasSingleInit, hinit])
  | none => isTrue (by simp [HasSingleInit, hinit])

/-- The declaration at a place, if there is one. -/
def declarationAt? : MarkerSite → Option Declaration
  | .loop _ => none
  | .declaration d => some d

/-- All declarations of a kernel, those in loop headers included. -/
def declarations (kernel : Function) : List Declaration :=
  (Stmt.markerSitesList kernel.body.stmts).filterMap declarationAt?

/-- The kernels in which every assigned variable is known to the rules, and each
name has one meaning in a declaration or a loop header. -/
structure Regular (kernel : Function) : Prop where
  /-- What an expression statement assigns is a variable of the kernel, or one over
  which a loop around it iterates. -/
  assigned : ∀ ev ∈ (walk kernel).past, ev.givesUnbound = false
  /-- Shared arrays are not sized by their own declarations. -/
  sized : ∀ d ∈ declarations kernel, SizedApart d
  /-- Each init expression assigns at most one variable. -/
  iterated : ∀ h ∈ kernel.loops, HasSingleInit h

end KernelCheck.Lexical
