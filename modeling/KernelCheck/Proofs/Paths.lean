import KernelCheck.Rule.Role

/-!
# Paths

A path leads from a statement down to one that stands inside it, through
blocks, branches, switches and loops of any kind.  What counts on the way are
the `for` loops whose bodies are entered, from the outermost to the innermost.

Loops are told apart by their places, not by their spans: two loops at different
places may well have the same span.

* `Stmt.mem_loops_iff` — the loops of a statement are those that a path leads to.
-/

namespace KernelCheck

/-- `Path s hs t`: the statement `t` is `s` or stands inside it, and the `for`
loops around `t` in `s` are `hs`, the outermost first. -/
inductive Stmt.Path : Stmt → List LoopHeader → Stmt → Prop
  | here (s : Stmt) : Path s [] s
  | block {stmts : List Stmt} {blockSpan span : Span} {s t : Stmt} {hs : List LoopHeader}
      (hmem : s ∈ stmts) (tail : Path s hs t) : Path (.block stmts blockSpan span) hs t
  | ifThen {condition : Expr} {span : Span} {a t : Stmt} {hs : List LoopHeader}
      (tail : Path a hs t) : Path (.ifThen condition a span) hs t
  | thenBranch {condition : Expr} {span : Span} {a b t : Stmt} {hs : List LoopHeader}
      (tail : Path a hs t) : Path (.ifElse condition a b span) hs t
  | elseBranch {condition : Expr} {span : Span} {a b t : Stmt} {hs : List LoopHeader}
      (tail : Path b hs t) : Path (.ifElse condition a b span) hs t
  | forLoop {header : LoopHeader} {span : Span} {body t : Stmt} {hs : List LoopHeader}
      (tail : Path body hs t) : Path (.forLoop header body span) (header :: hs) t
  | whileLoop {condition : Expr} {span : Span} {body t : Stmt} {hs : List LoopHeader}
      (tail : Path body hs t) : Path (.whileLoop condition body span) hs t
  | doWhile {condition : Expr} {span : Span} {body t : Stmt} {hs : List LoopHeader}
      (tail : Path body hs t) : Path (.doWhile body condition span) hs t
  | switch {scrutinee : Expr} {span : Span} {body t : Stmt} {hs : List LoopHeader}
      (tail : Path body hs t) : Path (.switch scrutinee body span) hs t

/-- `Path kernel hs t`: the statement `t` stands in the body of a function, and
the `for` loops around it are `hs`. -/
def Function.Path (kernel : Function) (hs : List LoopHeader) (t : Stmt) : Prop :=
  ∃ s ∈ kernel.body.stmts, s.Path hs t

namespace Stmt

/-- Two ways down, one after the other. -/
theorem Path.trans {s t u : Stmt} {hs ks : List LoopHeader} (h : s.Path hs t)
    (h' : t.Path ks u) : s.Path (hs ++ ks) u := by
  induction h with
  | here => exact h'
  | block hmem _ ih => exact .block hmem (ih h')
  | ifThen _ ih => exact .ifThen (ih h')
  | thenBranch _ ih => exact .thenBranch (ih h')
  | elseBranch _ ih => exact .elseBranch (ih h')
  | forLoop _ ih => exact .forLoop (ih h')
  | whileLoop _ ih => exact .whileLoop (ih h')
  | doWhile _ ih => exact .doWhile (ih h')
  | switch _ ih => exact .switch (ih h')

/-- The loops of several statements, one statement after the other. -/
theorem loopsList_eq_flatMap (stmts : List Stmt) : loopsList stmts = stmts.flatMap loops := by
  induction stmts with
  | nil => rfl
  | cons s rest ih => rw [loopsList, ih, List.flatMap_cons]

/-- The loop at the end of a path is one of the loops. -/
theorem Path.mem_loops {s t : Stmt} {hs : List LoopHeader} (h : s.Path hs t)
    {header : LoopHeader} (ht : header ∈ t.loops) : header ∈ s.loops := by
  induction h with
  | here => exact ht
  | block hmem _ ih =>
      rw [loops, loopsList_eq_flatMap]
      exact List.mem_flatMap.mpr ⟨_, hmem, ih ht⟩
  | ifThen _ ih => exact ih ht
  | thenBranch _ ih => exact List.mem_append_left _ (ih ht)
  | elseBranch _ ih => exact List.mem_append_right _ (ih ht)
  | forLoop _ ih => exact List.mem_cons_of_mem _ (ih ht)
  | whileLoop _ ih => exact ih ht
  | doWhile _ ih => exact ih ht
  | switch _ ih => exact ih ht

mutual

/-- A way leads down to every loop of a statement. -/
theorem exists_path_of_mem_loops {header : LoopHeader} :
    ∀ (s : Stmt), header ∈ s.loops → ∃ hs body span, s.Path hs (.forLoop header body span)
  | .expr .., h | .decl .., h | .caseLabel .., h | .breakJump .., h | .continueJump .., h
  | .returnJump .., h | .empty .., h => by simp [loops] at h
  | .block stmts _ _, h => by
      obtain ⟨s, hs, body, span, hmem, hpath⟩ := exists_path_of_mem_loopsList stmts h
      exact ⟨hs, body, span, .block hmem hpath⟩
  | .ifThen _ a _, h => by
      obtain ⟨hs, body, span, hpath⟩ := exists_path_of_mem_loops a h
      exact ⟨hs, body, span, .ifThen hpath⟩
  | .ifElse _ a b _, h => by
      rw [loops, List.mem_append] at h
      rcases h with h | h
      · obtain ⟨hs, body, span, hpath⟩ := exists_path_of_mem_loops a h
        exact ⟨hs, body, span, .thenBranch hpath⟩
      · obtain ⟨hs, body, span, hpath⟩ := exists_path_of_mem_loops b h
        exact ⟨hs, body, span, .elseBranch hpath⟩
  | .forLoop outer body span, h => by
      rw [loops, List.mem_cons] at h
      rcases h with rfl | h
      · exact ⟨[], body, span, .here _⟩
      · obtain ⟨hs, body', span', hpath⟩ := exists_path_of_mem_loops body h
        exact ⟨outer :: hs, body', span', .forLoop hpath⟩
  | .whileLoop _ body _, h => by
      obtain ⟨hs, body', span, hpath⟩ := exists_path_of_mem_loops body h
      exact ⟨hs, body', span, .whileLoop hpath⟩
  | .doWhile body _ _, h => by
      obtain ⟨hs, body', span, hpath⟩ := exists_path_of_mem_loops body h
      exact ⟨hs, body', span, .doWhile hpath⟩
  | .switch _ body _, h => by
      obtain ⟨hs, body', span, hpath⟩ := exists_path_of_mem_loops body h
      exact ⟨hs, body', span, .switch hpath⟩

/-- The same for several statements. -/
theorem exists_path_of_mem_loopsList {header : LoopHeader} :
    ∀ (stmts : List Stmt), header ∈ loopsList stmts →
      ∃ s hs body span, s ∈ stmts ∧ s.Path hs (.forLoop header body span)
  | [], h => by simp [loopsList] at h
  | s :: rest, h => by
      rw [loopsList, List.mem_append] at h
      rcases h with h | h
      · obtain ⟨hs, body, span, hpath⟩ := exists_path_of_mem_loops s h
        exact ⟨s, hs, body, span, List.mem_cons_self, hpath⟩
      · obtain ⟨t, hs, body, span, hmem, hpath⟩ := exists_path_of_mem_loopsList rest h
        exact ⟨t, hs, body, span, List.mem_cons_of_mem _ hmem, hpath⟩

end

/-- The loops of a statement are those that a path leads to. -/
theorem mem_loops_iff {s : Stmt} {header : LoopHeader} :
    header ∈ s.loops ↔ ∃ hs body span, s.Path hs (.forLoop header body span) := by
  constructor
  · exact exists_path_of_mem_loops s
  · rintro ⟨hs, body, span, hpath⟩
    exact hpath.mem_loops List.mem_cons_self

end Stmt

namespace Function

variable {kernel : Function} {hs ks : List LoopHeader} {s t : Stmt}

/-- A way from the kernel to a statement, and on from there. -/
theorem Path.trans (h : kernel.Path hs s) (h' : s.Path ks t) : kernel.Path (hs ++ ks) t := by
  obtain ⟨top, hmem, hpath⟩ := h
  exact ⟨top, hmem, hpath.trans h'⟩

/-- The loops of a function are those that a path leads to. -/
theorem mem_loops_iff {header : LoopHeader} :
    header ∈ kernel.loops ↔ ∃ hs body span, kernel.Path hs (.forLoop header body span) := by
  rw [loops, Stmt.loopsList_eq_flatMap, List.mem_flatMap]
  constructor
  · rintro ⟨s, hmem, hloop⟩
    obtain ⟨hs, body, span, hpath⟩ := Stmt.mem_loops_iff.mp hloop
    exact ⟨hs, body, span, s, hmem, hpath⟩
  · rintro ⟨hs, body, span, s, hmem, hpath⟩
    exact ⟨s, hmem, Stmt.mem_loops_iff.mpr ⟨hs, body, span, hpath⟩⟩

end Function

end KernelCheck
