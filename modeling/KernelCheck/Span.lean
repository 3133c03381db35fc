/-!
# Source spans

Kernel source is measured in bytes.  A `Span` is a half-open range of byte
offsets that a front end attaches to every node; the checker carries it along
and never reads the text behind it.

* `Span.ofOffsets` accepts a pair of offsets exactly when they are in order and
  both fit below the source limit, and otherwise says which rule is broken.
-/

namespace KernelCheck

/-- A half-open range of byte offsets: `start` belongs to it, `stop` does not. -/
structure Span where
  start : Nat
  stop : Nat
  deriving DecidableEq

/-- Why a pair of offsets is no span. -/
inductive SpanError where
  /-- An offset reaches the source limit. -/
  | pastLimit (offset : Nat)
  /-- The range ends before it starts. -/
  | inverted (start stop : Nat)
  deriving DecidableEq

namespace Span

/-- Source text is shorter than four gibibytes, so every offset lies below
this number. -/
def limit : Nat := 4294967296

/-- The span between two offsets.  The order of the two is judged before their
size, and the start before the end. -/
def ofOffsets (start stop : Nat) : Except SpanError Span :=
  if stop < start then .error (.inverted start stop)
  else if limit ≤ start then .error (.pastLimit start)
  else if limit ≤ stop then .error (.pastLimit stop)
  else .ok ⟨start, stop⟩

/-- The pairs that are spans are those in order and below the limit. -/
theorem ofOffsets_eq_ok_iff {start stop : Nat} {s : Span} :
    ofOffsets start stop = .ok s ↔ start ≤ stop ∧ stop < limit ∧ s = ⟨start, stop⟩ := by
  unfold ofOffsets
  split
  · simp; omega
  · split
    · simp; omega
    · split
      · simp; omega
      · simp only [Except.ok.injEq]
        constructor
        · intro h; exact ⟨by omega, by omega, h.symm⟩
        · intro h; exact h.2.2.symm

/-- Number of bytes between the two ends. -/
def length (s : Span) : Nat := s.stop - s.start

/-- The same as a difference of unsigned numbers: there is none if the span ends before
it starts. -/
def length? (s : Span) : Option Nat := if s.stop < s.start then none else some s.length

/-- A span that covers no byte. -/
def isEmpty (s : Span) : Bool := s.start == s.stop

/-- The short written form of a span, `start..stop`. -/
def text (s : Span) : String := s!"{s.start}..{s.stop}"

end Span

/-- What is wrong with the offsets, in words. -/
def SpanError.message : SpanError → String
  | .pastLimit offset => s!"offset {offset} is past the 4 GiB source limit"
  | .inverted start stop => s!"span {start}..{stop} ends before it starts"

end KernelCheck
