import KernelCheck.Rule.Findings

/-!
# What a stage finds

A stage goes through a kernel and meets a list of findings again and again: it
looks whether the list is closed, and it pushes problems onto it.  All that
comes to the same as pushing one list of problems, which depends on the kernel
alone, at the end.

* `Findings.foldl_unlessClosed_pushAll` — looking at things one by one, as long
  as the list is open, pushes the problems of all of them.
* `Stage.Finds` — the stage comes to pushing a given list of problems.
* `Stage.Finds.first_eq_take` — such a stage yields, if one problem is wanted,
  the first of those that it yields if all are wanted.
-/

namespace KernelCheck

namespace Findings

/-- Two lists of problems are appended one after the other. -/
theorem pushAll_append (f : Findings) (ps qs : List Problem) :
    f.pushAll (ps ++ qs) = (f.pushAll ps).pushAll qs :=
  List.foldl_append

/-- A list that was closed before is closed after. -/
theorem isClosed_pushAll {f : Findings} (h : f.isClosed) (ps : List Problem) :
    (f.pushAll ps).isClosed := by
  rw [pushAll_of_isClosed h]
  exact h

/-- Looking into a closed list and pushing onto it both change nothing, so a
look that only pushes need not be guarded. -/
theorem unlessClosed_eq_pushAll {f : Findings} {look : Findings → Findings} {ps : List Problem}
    (h : f.isClosed = false → look f = f.pushAll ps) : f.unlessClosed look = f.pushAll ps := by
  unfold unlessClosed
  by_cases hf : f.isClosed
  · rw [if_pos hf, pushAll_of_isClosed hf]
  · rw [if_neg hf, h (by simpa using hf)]

/-- Things looked at in turn, as long as the list is open, add the problems of
all of them. -/
theorem foldl_unlessClosed_pushAll {α : Type} (problems : α → List Problem) (xs : List α)
    (f : Findings) :
    xs.foldl (fun f x => f.unlessClosed (·.pushAll (problems x))) f =
      f.pushAll (xs.flatMap problems) := by
  induction xs generalizing f with
  | nil => rfl
  | cons x xs ih =>
      have hx : f.unlessClosed (·.pushAll (problems x)) = f.pushAll (problems x) :=
        unlessClosed_eq_pushAll fun _ => rfl
      rw [List.foldl_cons, hx, ih, List.flatMap_cons, pushAll_append]

/-- Findings without end keep all problems. -/
theorem problems_pushAll_all (ps : List Problem) : ((empty .all).pushAll ps).problems = ps := by
  rw [empty, pushAll_all, List.nil_append]

/-- Findings that end with the first problem keep that one. -/
theorem problems_pushAll_first (ps : List Problem) :
    ((empty .first).pushAll ps).problems = ps.take 1 := by
  cases ps with
  | nil => rfl
  | cons p ps =>
      have hclosed : ((empty .first).push p).isClosed := rfl
      change (((empty .first).push p).pushAll ps).problems = [p]
      rw [pushAll_of_isClosed hclosed]
      rfl

end Findings

namespace Stage

/-- The stage finds these problems in the subject: whatever was found before,
they are pushed onto it, one after the other. -/
def Finds (stage : Stage) (subject : Subject) (problems : List Problem) : Prop :=
  ∀ f, stage subject f = f.pushAll problems

variable {stage : Stage} {subject : Subject} {problems : List Problem}

/-- What a stage finds is what it yields on its own if all problems are wanted. -/
theorem Finds.all_eq (h : stage.Finds subject problems) :
    (stage subject (.empty .all)).problems = problems := by
  rw [h, Findings.problems_pushAll_all]

/-- A stage on its own yields the first of all its problems if one is wanted. -/
theorem Finds.first_eq_take (h : stage.Finds subject problems) :
    (stage subject (.empty .first)).problems =
      (stage subject (.empty .all)).problems.take 1 := by
  rw [h.all_eq, h, Findings.problems_pushAll_first]

/-- A stage that finds nothing for some extent has nothing to find. -/
theorem Finds.eq_nil_iff (h : stage.Finds subject problems) (extent : Extent) :
    (stage subject (.empty extent)).problems = [] ↔ problems = [] := by
  cases extent with
  | first => rw [h.first_eq_take, h.all_eq, List.take_eq_nil_iff]; simp
  | all => rw [h.all_eq]

end Stage

end KernelCheck
