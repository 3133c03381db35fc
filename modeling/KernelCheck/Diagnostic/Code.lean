/-!
# Diagnostic codes

Every rule has a code, `E` and four digits, of which the first tells the family
of rules.  A code is stable: tools and pages refer to a rule by it.

* `Code.parse?` reads a code in upper or lower case.
-/

namespace KernelCheck

/-- Families of rules, in the order in which they are checked; the last one is
for failures of the checker itself. -/
inductive Family where
  | markers | headers | nesting | storage | jumps | internal
  deriving DecidableEq

/-- Every family, once. -/
def Family.all : List Family :=
  [markers, headers, nesting, storage, jumps, internal]

/-- A rule that a diagnostic can be about. -/
inductive Code where
  | unknownAttribute | duplicateAttribute
  | badInduction | badTest | badUpdate
  | outerBelowInner | missingLoops | unevenDepth | innerOutsideOuter
  | sharedOutsideOuter | sharedInsideInner | exclusiveOutsideOuter | exclusiveInsideInner
  | variantBound
  | illegalBreak | illegalContinue
  | internal
  deriving DecidableEq

namespace Code

/-- Every code, in ascending order. -/
def all : List Code :=
  [unknownAttribute, duplicateAttribute,
   badInduction, badTest, badUpdate,
   outerBelowInner, missingLoops, unevenDepth, innerOutsideOuter,
   sharedOutsideOuter, sharedInsideInner, exclusiveOutsideOuter, exclusiveInsideInner,
   variantBound,
   illegalBreak, illegalContinue,
   internal]

/-- The digits of a code. -/
def number : Code → Nat
  | unknownAttribute => 1001
  | duplicateAttribute => 1002
  | badInduction => 2001
  | badTest => 2002
  | badUpdate => 2003
  | outerBelowInner => 3001
  | missingLoops => 3002
  | unevenDepth => 3003
  | innerOutsideOuter => 3004
  | sharedOutsideOuter => 4001
  | sharedInsideInner => 4002
  | exclusiveOutsideOuter => 4003
  | exclusiveInsideInner => 4004
  | variantBound => 4005
  | illegalBreak => 5001
  | illegalContinue => 5002
  | internal => 9001

/-- The written form of a code. -/
def text (c : Code) : String := s!"E{c.number}"

/-- The family that a code belongs to. -/
def family : Code → Family
  | unknownAttribute | duplicateAttribute => .markers
  | badInduction | badTest | badUpdate => .headers
  | outerBelowInner | missingLoops | unevenDepth | innerOutsideOuter => .nesting
  | sharedOutsideOuter | sharedInsideInner | exclusiveOutsideOuter | exclusiveInsideInner
  | variantBound => .storage
  | illegalBreak | illegalContinue => .jumps
  | internal => .internal

/-- The code with a given written form, in upper or lower case. -/
def parse? (s : String) : Option Code :=
  all.find? fun c => c.text == s.toUpper

/-- The written form of a code reads back. -/
theorem parse?_text (c : Code) : parse? c.text = some c := by
  cases c <;> decide +kernel

end Code

end KernelCheck
