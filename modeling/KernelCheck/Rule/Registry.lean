import KernelCheck.Syntax.Marker

/-!
# Where markers may stand

Markers stand on functions, on loops and on declarations.  Each built-in marker
has one kind of node that accepts it.  Custom markers are accepted where a
`Registry` says so, and nowhere if it does not know them.

* `Registry.register` widens what is known about a name and takes nothing back.
-/

namespace KernelCheck

/-- The kinds of nodes that carry markers. -/
inductive Target where
  | function | loop | declaration
  deriving DecidableEq

namespace Target

/-- Every kind of node, once. -/
def all : List Target := [function, loop, declaration]

/-- The kind of node in words. -/
def text : Target → String
  | function => "a function"
  | loop => "a `for` loop"
  | declaration => "a declaration"

end Target

/-- A set of kinds of nodes. -/
structure Targets where
  function : Bool
  loop : Bool
  declaration : Bool
  deriving DecidableEq

namespace Targets

/-- No kind of node. -/
def empty : Targets := ⟨false, false, false⟩

/-- One kind of node. -/
def only : Target → Targets
  | .function => { empty with function := true }
  | .loop => { empty with loop := true }
  | .declaration => { empty with declaration := true }

/-- What is in either set. -/
def union (a b : Targets) : Targets :=
  ⟨a.function || b.function, a.loop || b.loop, a.declaration || b.declaration⟩

/-- The set of the kinds in a list. -/
def ofList (targets : List Target) : Targets :=
  targets.foldl (fun set target => set.union (only target)) empty

/-- The kind is in the set. -/
def contains (set : Targets) : Target → Bool
  | .function => set.function
  | .loop => set.loop
  | .declaration => set.declaration

/-- Nothing is in the empty set. -/
@[simp] theorem contains_empty (t : Target) : empty.contains t = false := by cases t <;> rfl

/-- A set of one kind holds that kind alone. -/
@[simp] theorem contains_only (t u : Target) : (only t).contains u = (t == u) := by
  cases t <;> cases u <;> rfl

/-- A kind is in the union if it is in either set. -/
@[simp] theorem contains_union (a b : Targets) (t : Target) :
    (a.union b).contains t = (a.contains t || b.contains t) := by cases t <;> rfl

/-- The kinds in the set. -/
def toList (set : Targets) : List Target := Target.all.filter set.contains

end Targets

/-- Where a built-in marker is accepted; nothing is fixed for custom ones. -/
def MarkerKind.builtinTargets? : MarkerKind → Option Targets
  | kernel => some (.only .function)
  | outer | inner => some (.only .loop)
  | shared | exclusive => some (.only .declaration)
  | custom _ => none

/-- What is known about custom markers: at most one entry for each name. -/
structure Registry where
  entries : List (Name × Targets)

namespace Registry

/-- Nothing is known. -/
def empty : Registry := ⟨[]⟩

/-- Where markers of a name are accepted. -/
def targets (r : Registry) (name : Name) : Targets :=
  (r.entries.lookup name).getD .empty

/-- Adds kinds of nodes to the entry of a name, or makes one. -/
def insertInto (name : Name) (targets : Targets) :
    List (Name × Targets) → List (Name × Targets)
  | [] => [(name, targets)]
  | (n, known) :: rest =>
    if n = name then (n, known.union targets) :: rest
    else (n, known) :: insertInto name targets rest

/-- Markers of a name are also accepted on these kinds of nodes. -/
def register (r : Registry) (name : Name) (targets : Targets) : Registry :=
  ⟨insertInto name targets r.entries⟩

/-- The entry of a name after kinds of nodes are added to it. -/
theorem lookup_insertInto_self (name : Name) (set : Targets) (entries : List (Name × Targets)) :
    (insertInto name set entries).lookup name =
      some (((entries.lookup name).getD .empty).union set) := by
  induction entries with
  | nil => simp [insertInto, Targets.union, Targets.empty]
  | cons e rest ih =>
    obtain ⟨n, known⟩ := e
    by_cases h : n = name
    · subst h; simp [insertInto]
    · have h' : (name == n) = false := by simp [Ne.symm h]
      simp [insertInto, h, List.lookup_cons, h', ih]

/-- The entries of other names stay as they are. -/
theorem lookup_insertInto_of_ne {name other : Name} (set : Targets) (h : other ≠ name)
    (entries : List (Name × Targets)) :
    (insertInto name set entries).lookup other = entries.lookup other := by
  induction entries with
  | nil => simp [insertInto, h]
  | cons e rest ih =>
    obtain ⟨n, known⟩ := e
    by_cases hn : n = name
    · subst hn; simp [insertInto, List.lookup_cons, beq_eq_false_iff_ne.2 h]
    · simp [insertInto, hn, List.lookup_cons, ih]

/-- Registration widens the entry of its name. -/
theorem targets_register_self (r : Registry) (name : Name) (set : Targets) :
    (r.register name set).targets name = (r.targets name).union set := by
  simp [register, targets, lookup_insertInto_self]

/-- Registration leaves other names alone. -/
theorem targets_register_of_ne (r : Registry) {name other : Name} (set : Targets)
    (h : other ≠ name) : (r.register name set).targets other = r.targets other := by
  simp [register, targets, lookup_insertInto_of_ne set h]

/-- A marker is accepted on a kind of node. -/
def accepts (r : Registry) (kind : MarkerKind) (target : Target) : Bool :=
  match kind with
  | .custom name => (r.targets name).contains target
  | kind => (kind.builtinTargets?.getD .empty).contains target

/-- Number of names with an entry. -/
def size (r : Registry) : Nat := r.entries.length

/-- No name has an entry. -/
def isEmpty (r : Registry) : Bool := r.entries.isEmpty

end Registry

end KernelCheck
