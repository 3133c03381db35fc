import KernelCheck.Diagnostic.Code

/-!
# Pages

For every code there is a page that explains the rule, shows a kernel that
breaks it and one that does not.  Pages are written in Markdown; each is kept as
a list of its lines.
-/

namespace KernelCheck

namespace Page

/-- An attribute where it is not accepted. -/
def unknownAttribute : List String := [
  "# E1001: Unknown Attribute",
  "",
  "An attribute marker is not accepted on the kind of node it is attached to.",
  "",
  "`@outer` and `@inner` are only valid on `for` loops, `@shared` and",
  "`@exclusive` only on declarations, and `@kernel` only on functions. Any other",
  "marker must be registered for the node kind it appears on.",
  "",
  "## Example",
  "",
  "```c",
  "@kernel void add(int n) \x7b",
  "  @shared for (int o = 0; o < n; ++o) \x7b   // @shared on a loop",
  "  \x7d",
  "\x7d",
  "```",
  "",
  "## Solution",
  "",
  "Move the marker to a node kind that accepts it, or remove it:",
  "",
  "```c",
  "@kernel void add(int n) \x7b",
  "  for (int o = 0; o < n; ++o; @outer) \x7b",
  "    @shared float tile[16];",
  "    for (int i = 0; i < 16; ++i; @inner) \x7b",
  "    \x7d",
  "  \x7d",
  "\x7d",
  "```"]

/-- Two role attributes on one node. -/
def duplicateAttribute : List String := [
  "# E1002: Duplicate Attribute",
  "",
  "A node carries more than one role marker. A loop is either `@outer` or",
  "`@inner`, never both, and a declaration is either `@shared` or `@exclusive`.",
  "Repeating the same marker is also rejected.",
  "",
  "## Example",
  "",
  "```c",
  "for (int o = 0; o < n; ++o; @outer, @inner) \x7b",
  "\x7d",
  "```",
  "",
  "## Solution",
  "",
  "Keep exactly one role marker per node."]

/-- No single induction variable. -/
def badInduction : List String := [
  "# E2001: Bad Induction Declaration",
  "",
  "An `@outer` or `@inner` loop must declare exactly one integral induction",
  "variable with an initializer in its header.",
  "",
  "Rejected forms include a missing initializer clause, assigning an existing",
  "variable, declaring two variables, declaring an array, and non-integral",
  "types such as `float`.",
  "",
  "## Example",
  "",
  "```c",
  "int o;",
  "for (o = 0; o < n; ++o; @outer) \x7b \x7d          // assignment, not a declaration",
  "for (int o = 0, j = 0; o < n; ++o; @outer) \x7b \x7d // two variables",
  "for (float o = 0; o < n; ++o; @outer) \x7b \x7d     // not integral",
  "```",
  "",
  "## Solution",
  "",
  "Declare a single integer variable in the loop header:",
  "",
  "```c",
  "for (int o = 0; o < n; ++o; @outer) \x7b \x7d",
  "```"]

/-- A test that compares something else. -/
def badTest : List String := [
  "# E2002: Bad Loop Test",
  "",
  "The test of an `@outer` or `@inner` loop must compare the induction",
  "variable, as the left operand, against a bound using `<`, `<=`, `>` or `>=`.",
  "",
  "## Example",
  "",
  "```c",
  "for (int o = 0; ; ++o; @outer) \x7b \x7d        // no test",
  "for (int o = 0; o + 2; ++o; @outer) \x7b \x7d   // not a comparison",
  "for (int o = 0; j < 2; ++o; @outer) \x7b \x7d   // compares another variable",
  "for (int o = 0; 2 > o; ++o; @outer) \x7b \x7d   // induction variable on the right",
  "```",
  "",
  "## Solution",
  "",
  "Write the test as `iv < bound` (or `<=`, `>`, `>=`)."]

/-- An update that is no constant step. -/
def badUpdate : List String := [
  "# E2003: Bad Loop Increment",
  "",
  "The update of an `@outer` or `@inner` loop must step the induction",
  "variable additively: `++i`, `i++`, `--i`, `i--`, `i += k`, `i -= k`,",
  "`i = i + k`, `i = k + i` or `i = i - k`, where `k` does not depend on `i`.",
  "",
  "## Example",
  "",
  "```c",
  "for (int o = 0; o < n; ; @outer) \x7b \x7d       // no update",
  "for (int o = 0; o < n; o *= 2; @outer) \x7b \x7d // multiplicative",
  "for (int o = 0; o < n; ++j; @outer) \x7b \x7d    // another variable",
  "```",
  "",
  "## Solution",
  "",
  "Use a constant additive stride so the iteration space can be partitioned."]

/-- An outer loop below an inner one. -/
def outerBelowInner : List String := [
  "# E3001: Outer Loop Below Inner Loop",
  "",
  "An `@outer` loop appears somewhere inside an `@inner` loop. Work is split",
  "across groups first and threads second, so the nesting can never be",
  "reversed, even through plain loops in between.",
  "",
  "## Example",
  "",
  "```c",
  "for (int i = 0; i < 16; ++i; @inner) \x7b",
  "  for (int o = 0; o < n; ++o; @outer) \x7b \x7d",
  "\x7d",
  "```",
  "",
  "## Solution",
  "",
  "Swap the loops so every `@inner` loop sits inside an `@outer` loop."]

/-- A kernel that lacks a level of loops. -/
def missingLoops : List String := [
  "# E3002: Missing Outer Or Inner Loop",
  "",
  "A kernel must contain at least one `@outer` loop and at least one",
  "`@inner` loop.",
  "",
  "## Example",
  "",
  "```c",
  "@kernel void fill(float *a) \x7b",
  "  for (int o = 0; o < 4; ++o; @outer) \x7b",
  "    a[o] = 0;",
  "  \x7d",
  "\x7d",
  "```",
  "",
  "## Solution",
  "",
  "Add the missing level:",
  "",
  "```c",
  "@kernel void fill(float *a) \x7b",
  "  for (int o = 0; o < 4; ++o; @outer) \x7b",
  "    for (int i = 0; i < 16; ++i; @inner) \x7b",
  "      a[o * 16 + i] = 0;",
  "    \x7d",
  "  \x7d",
  "\x7d",
  "```"]

/-- Inner loops of different depth side by side. -/
def unevenDepth : List String := [
  "# E3003: Inconsistent Inner Loop Depth",
  "",
  "All `@inner` loops directly inside the same `@outer` (or `@inner`) loop",
  "must have the same number of nested `@inner` levels. Every group must run a",
  "congruent thread structure.",
  "",
  "## Example",
  "",
  "```c",
  "for (int o = 0; o < n; ++o; @outer) \x7b",
  "  for (int i = 0; i < 16; ++i; @inner) \x7b",
  "    for (int j = 0; j < 16; ++j; @inner) \x7b \x7d",
  "  \x7d",
  "  for (int i = 0; i < 16; ++i; @inner) \x7b \x7d   // depth 1, first sibling has 2",
  "\x7d",
  "```",
  "",
  "## Solution",
  "",
  "Give sibling `@inner` loops the same inner nesting depth."]

/-- An inner loop without an outer one. -/
def innerOutsideOuter : List String := [
  "# E3004: Inner Loop Outside Outer Loop",
  "",
  "An `@inner` loop has no enclosing `@outer` loop. Threads are only",
  "available inside a group.",
  "",
  "## Example",
  "",
  "```c",
  "@kernel void k(float *a) \x7b",
  "  for (int i = 0; i < 16; ++i; @inner) \x7b \x7d",
  "  for (int o = 0; o < 4; ++o; @outer) \x7b",
  "    for (int i = 0; i < 16; ++i; @inner) \x7b \x7d",
  "  \x7d",
  "\x7d",
  "```",
  "",
  "## Solution",
  "",
  "Move the `@inner` loop inside an `@outer` loop."]

/-- A shared declaration outside the outer loops. -/
def sharedOutsideOuter : List String := [
  "# E4001: Shared Declaration Outside Outer Loop",
  "",
  "`@shared` memory belongs to a group, so it must be declared inside an",
  "`@outer` loop.",
  "",
  "## Example",
  "",
  "```c",
  "@kernel void k(float *a) \x7b",
  "  @shared float tile[16];",
  "  for (int o = 0; o < 4; ++o; @outer) \x7b \x7d",
  "\x7d",
  "```",
  "",
  "## Solution",
  "",
  "Declare it inside the `@outer` loop, before any `@inner` loop."]

/-- A shared declaration inside an inner loop. -/
def sharedInsideInner : List String := [
  "# E4002: Shared Declaration Inside Inner Loop",
  "",
  "`@shared` memory is allocated once per group, so it cannot be declared",
  "inside an `@inner` loop.",
  "",
  "## Example",
  "",
  "```c",
  "for (int o = 0; o < 4; ++o; @outer) \x7b",
  "  for (int i = 0; i < 16; ++i; @inner) \x7b",
  "    @shared float tile[16];",
  "  \x7d",
  "\x7d",
  "```",
  "",
  "## Solution",
  "",
  "Declare it between the `@outer` loop and the first `@inner` loop."]

/-- An exclusive declaration outside the outer loops. -/
def exclusiveOutsideOuter : List String := [
  "# E4003: Exclusive Declaration Outside Outer Loop",
  "",
  "`@exclusive` variables hold per-thread state within a group and must be",
  "declared inside an `@outer` loop.",
  "",
  "## Example",
  "",
  "```c",
  "@kernel void k(float *a) \x7b",
  "  @exclusive float acc;",
  "  for (int o = 0; o < 4; ++o; @outer) \x7b \x7d",
  "\x7d",
  "```",
  "",
  "## Solution",
  "",
  "Declare it inside the `@outer` loop, before any `@inner` loop."]

/-- An exclusive declaration inside an inner loop. -/
def exclusiveInsideInner : List String := [
  "# E4004: Exclusive Declaration Inside Inner Loop",
  "",
  "`@exclusive` variables persist across `@inner` loops, so they cannot be",
  "declared inside one.",
  "",
  "## Example",
  "",
  "```c",
  "for (int o = 0; o < 4; ++o; @outer) \x7b",
  "  for (int i = 0; i < 16; ++i; @inner) \x7b",
  "    @exclusive float acc;",
  "  \x7d",
  "\x7d",
  "```",
  "",
  "## Solution",
  "",
  "Declare it between the `@outer` loop and the first `@inner` loop."]

/-- A shared array sized by a loop variable. -/
def variantBound : List String := [
  "# E4005: Non-Evaluable Shared Array Bound",
  "",
  "Every dimension of a `@shared` array must be computable before the group",
  "starts, so it may not read any enclosing loop's induction variable or a",
  "local computed from one.",
  "",
  "## Example",
  "",
  "```c",
  "for (int o = 0; o < 4; ++o; @outer) \x7b",
  "  @shared float tile[o];",
  "  @shared float grid[2][o];",
  "\x7d",
  "```",
  "",
  "## Solution",
  "",
  "Use constant expressions or values fixed before the loops:",
  "",
  "```c",
  "for (int o = 0; o < 4; ++o; @outer) \x7b",
  "  @shared float tile[16];",
  "\x7d",
  "```"]

/-- A break out of an attributed loop. -/
def illegalBreak : List String := [
  "# E5001: Illegal Break",
  "",
  "`break` directly inside an `@outer` or `@inner` loop would make some",
  "groups or threads stop early. A `break` inside a plain loop or a `switch`",
  "nested within them is fine.",
  "",
  "## Example",
  "",
  "```c",
  "for (int o = 0; o < 4; ++o; @outer) \x7b",
  "  if (o == 2) break;",
  "\x7d",
  "```",
  "",
  "## Solution",
  "",
  "Guard the loop body instead of leaving the loop:",
  "",
  "```c",
  "for (int o = 0; o < 4; ++o; @outer) \x7b",
  "  if (o != 2) \x7b /* ... */ \x7d",
  "\x7d",
  "```"]

/-- A continue in an attributed loop. -/
def illegalContinue : List String := [
  "# E5002: Illegal Continue",
  "",
  "`continue` directly inside an `@outer` or `@inner` loop skips work for",
  "some groups or threads. A `continue` inside a plain loop nested within them",
  "is fine. A `switch` does not capture `continue`.",
  "",
  "## Example",
  "",
  "```c",
  "for (int i = 0; i < 16; ++i; @inner) \x7b",
  "  if (i % 2) continue;",
  "\x7d",
  "```",
  "",
  "## Solution",
  "",
  "Wrap the remaining body in a condition instead."]

/-- A failure of the checker. -/
def internal : List String := [
  "# E9001: Internal Validator Error",
  "",
  "The validator reached a state it should never reach. This is a bug in the",
  "validator, not in your kernel.",
  "",
  "## Solution",
  "",
  "Please report the kernel that triggered it."]

end Page

/-- The lines of the page of a code. -/
def Code.pageLines : Code → List String
  | .unknownAttribute => Page.unknownAttribute
  | .duplicateAttribute => Page.duplicateAttribute
  | .badInduction => Page.badInduction
  | .badTest => Page.badTest
  | .badUpdate => Page.badUpdate
  | .outerBelowInner => Page.outerBelowInner
  | .missingLoops => Page.missingLoops
  | .unevenDepth => Page.unevenDepth
  | .innerOutsideOuter => Page.innerOutsideOuter
  | .sharedOutsideOuter => Page.sharedOutsideOuter
  | .sharedInsideInner => Page.sharedInsideInner
  | .exclusiveOutsideOuter => Page.exclusiveOutsideOuter
  | .exclusiveInsideInner => Page.exclusiveInsideInner
  | .variantBound => Page.variantBound
  | .illegalBreak => Page.illegalBreak
  | .illegalContinue => Page.illegalContinue
  | .internal => Page.internal

/-- The page of a code; every line of it has a line end. -/
def Code.page (c : Code) : String :=
  String.join (c.pageLines.map (· ++ "\n"))

end KernelCheck
