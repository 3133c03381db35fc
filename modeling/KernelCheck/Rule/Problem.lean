import KernelCheck.Diagnostic.Basic
import KernelCheck.Rule.Registry
import KernelCheck.Rule.Role

/-!
# Problems

A problem is a violation of one rule in one kernel.  It holds names and spans
only; `Problem.diagnostic` turns it into words.
-/

namespace KernelCheck

/-- Why the first clause of a loop header is rejected. -/
inductive InductionIssue where
  /-- There is no clause. -/
  | missingInit
  /-- The clause is an expression. -/
  | notADeclaration
  /-- The clause declares this many names. -/
  | declaratorCount (n : Nat)
  /-- The name has dimensions. -/
  | arrayInduction
  /-- The name has no initial value. -/
  | missingInitializer
  /-- The type is no integer type. -/
  | nonIntegralType
  deriving DecidableEq

/-- Why the test of a loop header is rejected. -/
inductive TestIssue where
  | missing
  /-- It is no comparison by order. -/
  | notRelational
  /-- The left operand is not the induction variable. -/
  | wrongOperand
  deriving DecidableEq

/-- Why the update of a loop header is rejected. -/
inductive UpdateIssue where
  | missing
  /-- It changes something other than the induction variable. -/
  | wrongVariable
  /-- It is no additive step. -/
  | notAdditive
  /-- The step mentions the induction variable. -/
  | stepReferencesVar
  deriving DecidableEq

/-- Which level of loops a kernel lacks. -/
inductive MissingLevel where
  | outer | inner | both
  deriving DecidableEq

/-- A violation.  `span` is the place of the node that breaks the rule. -/
inductive Problem where
  /-- The marker is not accepted on this kind of node. -/
  | unknownAttribute (span : Span) (kind : MarkerKind) (target : Target)
  /-- The node has a role already, given at `firstSpan`. -/
  | duplicateAttribute (span : Span) (kind : MarkerKind) (firstSpan : Span)
  | badInduction (span loopSpan : Span) (issue : InductionIssue)
  | badTest (span : Span) (var : Name) (issue : TestIssue)
  | badUpdate (span : Span) (var : Name) (issue : UpdateIssue)
  /-- An outer loop somewhere below an inner one. -/
  | outerBelowInner (span innerSpan : Span)
  /-- The kernel has no loop of some level. -/
  | missingLoops (span : Span) (kernel : Name) (missing : MissingLevel)
  /-- Siblings hold different numbers of levels of inner loops. -/
  | unevenDepth (span : Span) (depth expected : Nat) (firstSpan : Span)
  /-- An inner loop below no outer one. -/
  | innerOutsideOuter (span : Span)
  | sharedOutsideOuter (span : Span) (name : Name)
  | sharedInsideInner (span : Span) (name : Name) (innerSpan : Span)
  | exclusiveOutsideOuter (span : Span) (name : Name)
  | exclusiveInsideInner (span : Span) (name : Name) (innerSpan : Span)
  /-- A dimension of a shared array mentions a variable that changes per
  iteration. -/
  | variantBound (span : Span) (array var : Name) (varSpan : Span)
  | illegalBreak (span loopSpan : Span) (role : LoopRole)
  | illegalContinue (span loopSpan : Span) (role : LoopRole)
  deriving DecidableEq

/-- The issue in words: the message and the label. -/
def InductionIssue.texts : InductionIssue → String × String
  | missingInit => ("attributed loop has no induction variable", "loop header declares nothing")
  | notADeclaration => ("attributed loop assigns an existing variable", "expected a declaration")
  | declaratorCount n =>
    (s!"attributed loop declares {n} variables", "expected exactly one variable")
  | arrayInduction => ("induction variable is an array", "expected a scalar")
  | missingInitializer => ("induction variable has no initial value", "initializer required")
  | nonIntegralType => ("induction variable is not an integer", "expected an integral type")

/-- The issue in words: the message and the label. -/
def TestIssue.texts : TestIssue → String × String
  | missing => ("attributed loop has no test", "test required")
  | notRelational =>
    ("loop test is not a relational comparison", "expected `<`, `<=`, `>` or `>=`")
  | wrongOperand =>
    ("loop test does not compare the induction variable",
     "left operand must be the induction variable")

/-- The issue in words: the message and the label. -/
def UpdateIssue.texts : UpdateIssue → String × String
  | missing => ("attributed loop has no update", "update required")
  | wrongVariable =>
    ("loop update does not step the induction variable", "updates another variable")
  | notAdditive => ("loop update is not an additive step", "not additive")
  | stepReferencesVar =>
    ("loop step depends on the induction variable", "step is not constant across iterations")

/-- The level in words. -/
def MissingLevel.text : MissingLevel → String
  | outer => "`@outer` loop"
  | inner => "`@inner` loop"
  | both => "`@outer` or `@inner` loop"

namespace Problem

/-- The place of the node that breaks the rule. -/
def span : Problem → Span
  | unknownAttribute s _ _ | duplicateAttribute s _ _ | badInduction s _ _ | badTest s _ _
  | badUpdate s _ _ | outerBelowInner s _ | missingLoops s _ _ | unevenDepth s _ _ _
  | innerOutsideOuter s | sharedOutsideOuter s _ | sharedInsideInner s _ _
  | exclusiveOutsideOuter s _ | exclusiveInsideInner s _ _ | variantBound s _ _ _
  | illegalBreak s _ _ | illegalContinue s _ _ => s

/-- The code of the rule that is broken. -/
def code : Problem → Code
  | unknownAttribute .. => .unknownAttribute
  | duplicateAttribute .. => .duplicateAttribute
  | badInduction .. => .badInduction
  | badTest .. => .badTest
  | badUpdate .. => .badUpdate
  | outerBelowInner .. => .outerBelowInner
  | missingLoops .. => .missingLoops
  | unevenDepth .. => .unevenDepth
  | innerOutsideOuter .. => .innerOutsideOuter
  | sharedOutsideOuter .. => .sharedOutsideOuter
  | sharedInsideInner .. => .sharedInsideInner
  | exclusiveOutsideOuter .. => .exclusiveOutsideOuter
  | exclusiveInsideInner .. => .exclusiveInsideInner
  | variantBound .. => .variantBound
  | illegalBreak .. => .illegalBreak
  | illegalContinue .. => .illegalContinue

/-- The name of the rule that is broken, for tools. -/
def ruleName : Problem → String
  | unknownAttribute .. => "UnknownAttribute"
  | duplicateAttribute .. => "DuplicateAttribute"
  | badInduction .. => "BadInductionDecl"
  | badTest .. => "BadLoopTest"
  | badUpdate .. => "BadLoopIncrement"
  | outerBelowInner .. => "OuterBelowInner"
  | missingLoops .. => "MissingOuterOrInner"
  | unevenDepth .. => "InconsistentInnerDepth"
  | innerOutsideOuter .. => "InnerOutsideOuter"
  | sharedOutsideOuter .. => "SharedOutsideOuter"
  | sharedInsideInner .. => "SharedInsideInner"
  | exclusiveOutsideOuter .. => "ExclusiveOutsideOuter"
  | exclusiveInsideInner .. => "ExclusiveInsideInner"
  | variantBound .. => "NonEvaluableSharedBound"
  | illegalBreak .. => "IllegalBreak"
  | illegalContinue .. => "IllegalContinue"

/-- A declaration with a role that stands outside every outer loop. -/
def outsideOuter (d : Diagnostic) (span : Span) (role name : String) : Diagnostic :=
  d.saying s!"`@{role}` variable `{name}` is declared outside an `@outer` loop"
    |>.pointingAt span "no enclosing @outer loop"
    |>.suggesting "declare it inside the @outer loop, before any @inner loop"

/-- A declaration with a role that stands inside an inner loop. -/
def insideInner (d : Diagnostic) (span innerSpan : Span) (role name : String) : Diagnostic :=
  d.saying s!"`@{role}` variable `{name}` is declared inside an `@inner` loop"
    |>.pointingAt span "declared here"
    |>.alongside innerSpan "inside this @inner loop"
    |>.suggesting "declare it inside the @outer loop, before any @inner loop"

/-- A jump that leaves or cuts short an attributed loop. -/
def jump (d : Diagnostic) (span loopSpan : Span) (role : LoopRole) (word effect : String) :
    Diagnostic :=
  d.saying s!"`{word}` directly inside an `@{role.text}` loop"
    |>.pointingAt span effect
    |>.alongside loopSpan s!"this @{role.text} loop"
    |>.noting "every group and thread must run every iteration"

/-- The problem in words; names are looked up in the table. -/
def diagnostic (t : Interner) (p : Problem) : Diagnostic :=
  let d := Diagnostic.error p.code
  match p with
  | unknownAttribute span kind target =>
    d.saying s!"attribute `@{kind.text t}` is not accepted on {target.text}"
      |>.pointingAt span "unknown attribute here"
  | duplicateAttribute span kind firstSpan =>
    d.saying s!"conflicting attribute `@{kind.text t}`"
      |>.pointingAt span "second role attribute"
      |>.alongside firstSpan "role already set here"
      |>.noting "a node carries at most one of @outer/@inner or @shared/@exclusive"
  | badInduction span loopSpan issue =>
    d.saying issue.texts.1
      |>.pointingAt span issue.texts.2
      |>.alongside loopSpan "in this loop"
      |>.suggesting "declare one integer in the header: `for (int i = 0; ...)`"
  | badTest span var issue =>
    d.saying issue.texts.1
      |>.pointingAt span issue.texts.2
      |>.suggesting s!"write the test as `{t.lookup var} < bound`"
  | badUpdate span var issue =>
    let v := t.lookup var
    d.saying issue.texts.1
      |>.pointingAt span issue.texts.2
      |>.suggesting s!"use `++{v}`, `{v}++`, `{v} += k` or `{v} = {v} + k`"
  | outerBelowInner span innerSpan =>
    d.saying "`@outer` loop nested inside an `@inner` loop"
      |>.pointingAt span "this @outer loop"
      |>.alongside innerSpan "is inside this @inner loop"
      |>.noting "@inner loops must always be nested within @outer loops"
  | missingLoops span kernel missing =>
    d.saying s!"kernel `{t.lookup kernel}` has no {missing.text}"
      |>.pointingAt span "kernel declared here"
      |>.noting "a kernel needs at least one @outer and one @inner loop"
  | unevenDepth span depth expected firstSpan =>
    d.saying s!"`@inner` loop nests {depth} level(s) deep, its sibling nests {expected}"
      |>.pointingAt span s!"{depth} level(s) of @inner loops"
      |>.alongside firstSpan s!"{expected} level(s) here"
      |>.noting "sibling @inner loops must have the same number of nested @inner loops"
  | innerOutsideOuter span =>
    d.saying "`@inner` loop is not inside an `@outer` loop"
      |>.pointingAt span "no enclosing @outer loop"
  | sharedOutsideOuter span name => outsideOuter d span "shared" (t.lookup name)
  | sharedInsideInner span name innerSpan => insideInner d span innerSpan "shared" (t.lookup name)
  | exclusiveOutsideOuter span name => outsideOuter d span "exclusive" (t.lookup name)
  | exclusiveInsideInner span name innerSpan =>
    insideInner d span innerSpan "exclusive" (t.lookup name)
  | variantBound span array var varSpan =>
    let v := t.lookup var
    d.saying s!"dimension of `@shared` array `{t.lookup array}` depends on loop variable `{v}`"
      |>.pointingAt span "not known before the group starts"
      |>.alongside varSpan s!"`{v}` changes per iteration"
      |>.noting "shared memory is sized once per group"
  | illegalBreak span loopSpan role => jump d span loopSpan role "break" "exits the loop early"
  | illegalContinue span loopSpan role =>
    jump d span loopSpan role "continue" "skips the rest of the iteration"

end Problem

end KernelCheck
