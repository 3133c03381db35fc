import KernelCheck.Rule.Problem

/-!
# Findings

The rules of a kernel add their problems to one list of findings.  Whoever only
wants to know whether there is a problem asks for the first one only; then the list closes
with the first problem, and a rule that sees it closed may stop looking.

* `Findings.push` on a closed list changes nothing, so a rule that goes on
  looking does no harm either.
-/

namespace KernelCheck

/-- How many problems are wanted. -/
inductive Extent where
  /-- The first one. -/
  | first
  /-- All of them. -/
  | all
  deriving DecidableEq

/-- The problems of a kernel so far, in the order in which they were found. -/
structure Findings where
  extent : Extent
  problems : List Problem

/-- What a rule looks at: the kernel, the names in it, and where custom markers
may stand. -/
structure Subject where
  kernel : Function
  names : Interner
  registry : Registry

/-- A rule, or a family of rules, adds what it finds in a kernel. -/
abbrev Stage := Subject → Findings → Findings

namespace Findings

/-- Nothing found yet. -/
def empty (extent : Extent) : Findings := ⟨extent, []⟩

/-- No further problem will be kept. -/
def isClosed (f : Findings) : Bool := f.extent == .first && !f.problems.isEmpty

/-- Keeps a problem unless the list is closed. -/
def push (f : Findings) (p : Problem) : Findings :=
  if f.isClosed then f else { f with problems := f.problems ++ [p] }

/-- Keeps several problems in order, as far as the list stays open. -/
def pushAll (f : Findings) (ps : List Problem) : Findings := ps.foldl push f

/-- Looks further only if the list is open. -/
def unlessClosed (f : Findings) (look : Findings → Findings) : Findings :=
  if f.isClosed then f else look f

/-- A list of findings is open at first. -/
theorem isClosed_empty (extent : Extent) : (empty extent).isClosed = false := by
  simp [isClosed, empty]

/-- A list that takes every problem never closes. -/
theorem isClosed_all (ps : List Problem) : (Findings.mk .all ps).isClosed = false := rfl

/-- A closed list stays as it is. -/
theorem push_of_isClosed {f : Findings} (h : f.isClosed) (p : Problem) : f.push p = f := by
  simp [push, h]

/-- A closed list takes none of several problems. -/
theorem pushAll_of_isClosed {f : Findings} (h : f.isClosed) (ps : List Problem) :
    f.pushAll ps = f := by
  unfold pushAll
  induction ps with
  | nil => rfl
  | cons p ps ih => rw [List.foldl_cons, push_of_isClosed h, ih]

/-- A list that takes every problem grows by all of them. -/
theorem pushAll_all (ps qs : List Problem) :
    (Findings.mk .all ps).pushAll qs = ⟨.all, ps ++ qs⟩ := by
  unfold pushAll
  induction qs generalizing ps with
  | nil => simp
  | cons q qs ih =>
    rw [List.foldl_cons]
    simpa [push, isClosed_all] using ih (ps ++ [q])

end Findings

end KernelCheck
