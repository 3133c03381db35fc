import KernelCheck.Rule.Findings

/-!
# Shared and exclusive variables

The fourth family of rules.  Shared and exclusive variables belong to a group, so
they are declared below an outer loop and not below an inner one.  Shared memory
is sized once per group, so the dimensions of a shared array mention no variable
that changes from iteration to iteration.

A variable changes if it is an induction variable, or if it got a value that
mentions one that changes: as its initial value, or by an assignment since.  A
name that is declared again means the new variable until its scope ends.

* `Scope` is what is known at a point of the kernel: the loops around it and the
  variables declared before it.
* `Scope.leave` goes back to the loops and variables of an outer scope, and keeps
  what has become known about them in the meantime.
-/

namespace KernelCheck

/-- A loop around a point of the kernel. -/
structure Frame where
  role : LoopRole
  span : Span
  deriving DecidableEq

/-- A variable in scope, and whether it changes per iteration. -/
structure Binding where
  name : Name
  variant : Bool
  deriving DecidableEq

/-- The loops around a point and the variables in scope there, innermost first.
The first binding of a name is the one that counts. -/
structure Scope where
  frames : List Frame
  bindings : List Binding
  deriving DecidableEq

namespace Scope

/-- No loops and no variables. -/
def empty : Scope := ⟨[], []⟩

/-- Some loop around the point is outer. -/
def hasOuter (s : Scope) : Bool := s.frames.any (·.role == .outer)

/-- The nearest inner loop around the point. -/
def nearestInner? (s : Scope) : Option Span :=
  (s.frames.find? (·.role == .inner)).map (·.span)

/-- A further variable. -/
def bind (s : Scope) (name : Name) (variant : Bool) : Scope :=
  { s with bindings := ⟨name, variant⟩ :: s.bindings }

/-- Several further variables, the first one first. -/
def bindAll (s : Scope) (names : List Name) (variant : Bool) : Scope :=
  names.foldl (fun s name => s.bind name variant) s

/-- Marks the binding of a name that counts; nothing if the name is not bound. -/
def markFirst? (name : Name) : List Binding → Option (List Binding)
  | [] => none
  | b :: rest =>
    if b.name = name then some ({ b with variant := true } :: rest)
    else (markFirst? name rest).map (b :: ·)

/-- A variable has got a value that changes.  If the name is not bound it is bound
here. -/
def setVariant (s : Scope) (name : Name) : Scope :=
  match markFirst? name s.bindings with
  | some bindings => { s with bindings }
  | none => s.bind name true

/-- The variable that a name means here changes per iteration. -/
def isVariant (s : Scope) (name : Name) : Bool :=
  ((s.bindings.find? (·.name == name)).map (·.variant)).getD false

/-- Every name that means a variable that changes, once. -/
def variantNames (s : Scope) : List Name :=
  s.bindings.foldl
    (fun names b =>
      if !names.contains b.name && s.isVariant b.name then names ++ [b.name] else names) []

/-- The first mention of a variable that changes. -/
def firstVariant? (s : Scope) (e : Expr) : Option (Name × Span) :=
  e.firstOccurrence? s.isVariant

/-- Inside a loop. -/
def enter (s : Scope) (role : LoopRole) (span : Span) : Scope :=
  { s with frames := ⟨role, span⟩ :: s.frames }

/-- Back to the scope that `outer` was, from a point inside it. -/
def leave (s outer : Scope) : Scope :=
  { frames := s.frames.drop (s.frames.length - outer.frames.length)
    bindings := s.bindings.drop (s.bindings.length - outer.bindings.length) }

/-- Leaving at once changes nothing. -/
theorem leave_self (s : Scope) : s.leave s = s := by simp [leave]

/-- A loop is gone once it is left. -/
theorem leave_enter (s : Scope) (role : LoopRole) (span : Span) :
    (s.enter role span).leave s = s := by simp [leave, enter]

/-- A variable is gone once the scope that declares it is left. -/
theorem leave_bind (s : Scope) (name : Name) (variant : Bool) :
    (s.bind name variant).leave s = s := by simp [leave, bind]

/-- The new variables of a declaration; each initial value is judged with those
before it in scope. -/
def declare (s : Scope) (ds : List Declarator) : Scope :=
  ds.foldl
    (fun s d => s.bind d.name ((d.init.bind s.firstVariant?).isSome)) s

mutual

/-- What the assignments in an expression statement make known.  Comma lists and
chains of assignments are looked into, and nothing else is. -/
def assigned : Expr → Scope → Scope
  | .assign _ target value _, s =>
    let s := assigned value s
    match target.ident? with
    | some name => if (s.firstVariant? value).isSome then s.setVariant name else s
    | none => s
  | .comma parts _, s => assignedList parts s
  | _, s => s

/-- The same for several expressions. -/
def assignedList : List Expr → Scope → Scope
  | [], s => s
  | e :: rest, s => assignedList rest (assigned e s)

end

end Scope

namespace Storage

/-- The problem with the place of a declaration.  A declaration is known by its
first name; one without names has no place. -/
def roleProblem? (s : Scope) (d : Declaration) : Option Problem :=
  match d.declarators with
  | [] => none
  | first :: _ =>
    match d.role, s.hasOuter, s.nearestInner? with
    | .plain, _, _ => none
    | .shared, false, _ => some (.sharedOutsideOuter d.span first.name)
    | .exclusive, false, _ => some (.exclusiveOutsideOuter d.span first.name)
    | .shared, true, some innerSpan => some (.sharedInsideInner d.span first.name innerSpan)
    | .exclusive, true, some innerSpan => some (.exclusiveInsideInner d.span first.name innerSpan)
    | _, true, none => none

/-- The problem with a dimension of the array of a declarator. -/
def boundProblem? (s : Scope) (variant : List Name) (array : Name) (dim : Expr) :
    Option Problem :=
  if dim.avoids variant then none
  else (s.firstVariant? dim).map fun (var, varSpan) => .variantBound dim.span array var varSpan

/-- The problems with the dimensions of a declaration; all of them are judged
before any of its names is in scope. -/
def boundProblems (s : Scope) (d : Declaration) : List Problem :=
  let variant := s.variantNames
  d.declarators.flatMap fun array => array.dims.filterMap (boundProblem? s variant array.name)

/-- A declaration: its place, its dimensions if it is shared, and then its names. -/
def declaration (d : Declaration) (s : Scope) (f : Findings) : Scope × Findings :=
  let f := f.pushAll (roleProblem? s d).toList
  let f := if d.role = .shared then f.pushAll (boundProblems s d) else f
  (s.declare d.declarators, f)

/-- The variables that a loop iterates over: those that its header declares, or
the one that it assigns first. -/
def inductionNames : Option ForInit → List Name
  | some (.decl d) => d.declarators.map (·.name)
  | some (.expr (.assign _ target _ _)) => target.ident?.toList
  | _ => []

/-- The declaration in a loop header stands outside the loop. -/
def initClause (init : Option ForInit) (s : Scope) (f : Findings) : Scope × Findings :=
  match init with
  | some (.decl d) => declaration d s f
  | _ => (s, f)

mutual

/-- A statement.  It may leave variables in scope that it declares, or that it
assigns without a declaration. -/
def stmt : Stmt → Scope → Findings → Scope × Findings
  | .decl d _, s, f => declaration d s f
  | .expr e _, s, f => (Scope.assigned e s, f)
  | .block stmts _ _, s, f =>
    let (inside, f) := stmtList stmts s f
    (inside.leave s, f)
  | .forLoop header body _, s, f =>
    let (around, f) := initClause header.init s f
    let inside := (around.enter header.role header.span).bindAll (inductionNames header.init) true
    let (inside, f) := stmt body inside f
    ((inside.leave around).leave s, f)
  | .whileLoop _ body span, s, f | .doWhile body _ span, s, f =>
    let (inside, f) := stmt body (s.enter .plain span) f
    (inside.leave s, f)
  | .ifThen _ a _, s, f | .switch _ a _, s, f =>
    let (inside, f) := stmt a s f
    (inside.leave s, f)
  | .ifElse _ a b _, s, f =>
    let (inside, f) := stmt a s f
    let (inside', f) := stmt b (inside.leave s) f
    (inside'.leave s, f)
  | .caseLabel .., s, f | .breakJump .., s, f | .continueJump .., s, f | .returnJump .., s, f
  | .empty .., s, f => (s, f)

/-- The statements of a block, as long as the findings are open. -/
def stmtList : List Stmt → Scope → Findings → Scope × Findings
  | [], s, f => (s, f)
  | st :: rest, s, f =>
    if f.isClosed then (s, f)
    else
      let (s, f) := stmt st s f
      stmtList rest s f

end

/-- What is in scope at the start of a kernel: parameters, which do not change. -/
def atStart (kernel : Function) : Scope :=
  Scope.empty.bindAll (kernel.params.map (·.name)) false

end Storage

/-- The rules on shared and exclusive declarations. -/
def Stage.storage : Stage := fun s f =>
  (Storage.stmtList s.kernel.body.stmts (Storage.atStart s.kernel) f).2

end KernelCheck
