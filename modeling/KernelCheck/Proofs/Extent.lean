import KernelCheck.Proofs.Families
import KernelCheck.Proofs.Nesting.Frontier
import KernelCheck.Proofs.Storage.Judged
import KernelCheck.Verdict

/-!
# One problem or all of them

Whoever wants the first problem of a kernel only gets the first of the problems
that are found if all are wanted, although every family of rules stops at
places of its own.  The reason is the same everywhere: each family finds one
list of problems, whatever was found before, and a closed list of findings takes
no more than its first.

* `Stage.inTurn_finds` — all families together find their lists one after the
  other.
* `problems_first_eq_take` — the statement for each family, for a kernel and for
  a module.
-/

namespace KernelCheck

/-- The problems of a kernel, one family of rules after the other. -/
def Subject.problems (s : Subject) : List Problem :=
  s.markerProblems ++ (s.headerProblems ++ (s.nestingProblems ++
    (s.kernel.storageProblems ++ s.jumpProblems)))

namespace Stage

/-- Each family of rules finds some list of problems in a kernel. -/
theorem exists_finds {stage : Stage} (h : stage ∈ Stage.all) (s : Subject) :
    ∃ problems, stage.Finds s problems := by
  simp only [Stage.all, List.mem_cons, List.not_mem_nil, or_false] at h
  rcases h with rfl | rfl | rfl | rfl | rfl
  · exact ⟨_, markers_finds s⟩
  · exact ⟨_, headers_finds s⟩
  · exact ⟨_, nesting_finds s⟩
  · exact ⟨_, storage_finds s⟩
  · exact ⟨_, jumps_finds s⟩

/-- A family that is left out when the findings are closed finds the same. -/
theorem Finds.unlessClosed {stage : Stage} {s : Subject} {problems : List Problem}
    (h : stage.Finds s problems) (f : Findings) :
    f.unlessClosed (stage s) = f.pushAll problems :=
  Findings.unlessClosed_eq_pushAll fun _ => h f

/-- **All families in turn** find what each of them finds. -/
theorem inTurn_finds (s : Subject) : Stage.inTurn.Finds s s.problems := by
  intro f
  simp only [Stage.inTurn, Stage.all, List.foldl_cons, List.foldl_nil, Subject.problems,
    (markers_finds s).unlessClosed, (headers_finds s).unlessClosed,
    (nesting_finds s).unlessClosed, (storage_finds s).unlessClosed,
    (jumps_finds s).unlessClosed, Findings.pushAll_append]

end Stage

/-- The verdict to the full extent has all problems of all families. -/
theorem Function.problems_verdict_all (kernel : Function) (names : Interner)
    (registry : Registry) :
    (kernel.verdict names registry .all).problems =
      Subject.problems { kernel, names, registry } :=
  (Stage.inTurn_finds { kernel, names, registry }).all_eq

/-- The verdict to the first problem has the first of all problems, if there is one. -/
theorem Function.problems_verdict_first (kernel : Function) (names : Interner)
    (registry : Registry) :
    (kernel.verdict names registry .first).problems =
      (kernel.verdict names registry .all).problems.take 1 :=
  (Stage.inTurn_finds { kernel, names, registry }).first_eq_take

/-- A kernel passes if and only if it has no problem at all. -/
theorem Function.passed_verdict_first_iff (kernel : Function) (names : Interner)
    (registry : Registry) :
    (kernel.verdict names registry .first).passed = true ↔
      (kernel.verdict names registry .all).problems = [] := by
  rw [Verdict.passed, List.isEmpty_iff, Function.problems_verdict_first, List.take_eq_nil_iff]
  simp

/-- **The first problem is the first of all problems.**  What is found if one
problem is wanted is the first of what is found if all are wanted, for a kernel
and for each family of rules on its own.  Hence a module passes exactly if no
verdict on it lists a problem. -/
theorem problems_first_eq_take :
    (∀ (kernel : Function) (names : Interner) (registry : Registry),
      (kernel.verdict names registry .first).problems =
        (kernel.verdict names registry .all).problems.take 1) ∧
    (∀ stage ∈ Stage.all, ∀ subject : Subject,
      (stage subject (.empty .first)).problems =
        (stage subject (.empty .all)).problems.take 1) ∧
    (∀ (m : Module) (names : Interner) (registry : Registry),
      m.passes names registry = true ↔
        ∀ v ∈ (m.report names registry .all).verdicts, v.problems = []) := by
  refine ⟨Function.problems_verdict_first, ?_, ?_⟩
  · intro stage hstage subject
    obtain ⟨problems, hfinds⟩ := Stage.exists_finds hstage subject
    exact hfinds.first_eq_take
  · intro m names registry
    simp only [Module.passes, Report.passed, Module.report, List.all_map, List.all_eq_true,
      List.forall_mem_map, Function.comp_apply, Function.passed_verdict_first_iff]

end KernelCheck
