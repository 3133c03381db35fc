/-!
# Names and the table that holds their texts

An identifier is stored once, in an `Interner`, and is known everywhere else by
its position there.  A `Name` is that position.

* `Interner.intern` adds a text only if it is new, so equal texts get equal
  names and a name keeps its text for ever.
* `Interner.tryIntern` does the same and fails once every position is taken.
* `Interner.lookup` is total: a name of another table reads as the empty text.
-/

namespace KernelCheck

/-- The handle of a text: its position in the table that issued it. -/
structure Name where
  index : Nat
  deriving DecidableEq

namespace Name

/-- The name of the empty text, which every table holds first. -/
def empty : Name := ⟨0⟩

/-- The short written form of a name, for logs. -/
def text (n : Name) : String := s!"Name({n.index})"

end Name

/-- The texts known so far, each at the position that its name says. -/
structure Interner where
  texts : List String

/-- Why a text gets no name. -/
inductive InternError where
  /-- Every position is taken. -/
  | full (count : Nat)
  deriving DecidableEq

/-- What is wrong with the table, in words. -/
def InternError.message : InternError → String
  | .full count => s!"identifier table is full ({count} names)"

namespace Interner

/-- Texts that every kernel may need: the empty one, the built-in markers and
the type words. -/
def initialTexts : List String :=
  ["", "kernel", "outer", "inner", "shared", "exclusive", "void", "bool", "char", "short",
   "int", "long", "float", "double", "size_t", "ptrdiff_t"]

/-- The table before any module is loaded. -/
def initial : Interner := ⟨initialTexts⟩

/-- Number of texts, the empty one included. -/
def size (t : Interner) : Nat := t.texts.length

/-- A table without any text but the empty one. -/
def isEmpty (t : Interner) : Bool := t.size ≤ 1

/-- The name of a text that is already in the table. -/
def get? (t : Interner) (s : String) : Option Name :=
  (t.texts.idxOf? s).map Name.mk

/-- The text of a name; the empty text for a name past the end. -/
def lookup (t : Interner) (n : Name) : String :=
  (t.texts[n.index]?).getD ""

/-- The name of a text, which is added at the end if it is new. -/
def intern (t : Interner) (s : String) : Name × Interner :=
  match t.get? s with
  | some n => (n, t)
  | none => (⟨t.size⟩, ⟨t.texts ++ [s]⟩)

/-- A position takes 32 bits, so there are this many. -/
def capacity : Nat := 4294967296

/-- The name of a text, as long as there is a position for it.  A text that is in the
table needs none. -/
def tryIntern (t : Interner) (s : String) : Except InternError (Name × Interner) :=
  match t.get? s with
  | some n => .ok (n, t)
  | none => if t.size < capacity then .ok (⟨t.size⟩, ⟨t.texts ++ [s]⟩) else .error (.full t.size)

/-- A text that is found is the text of its name. -/
theorem lookup_of_get? {t : Interner} {s : String} {n : Name} (h : t.get? s = some n) :
    t.lookup n = s := by
  unfold get? at h
  obtain ⟨i, hi, rfl⟩ := Option.map_eq_some_iff.1 h
  obtain ⟨hlt, heq, _⟩ := List.idxOf?_eq_some_iff.1 hi
  simp [lookup, List.getElem?_eq_getElem hlt, heq]

/-- The new name reads as the text it was made for. -/
theorem lookup_intern (t : Interner) (s : String) :
    (t.intern s).2.lookup (t.intern s).1 = s := by
  unfold intern
  split
  · rename_i n h
    exact lookup_of_get? h
  · simp [lookup, size]

/-- A name keeps its text when another one is added. -/
theorem lookup_intern_of_lt {t : Interner} {n : Name} (s : String) (h : n.index < t.size) :
    (t.intern s).2.lookup n = t.lookup n := by
  unfold intern
  split
  · rfl
  · simp only [lookup]
    rw [List.getElem?_append_left h]

end Interner

end KernelCheck
