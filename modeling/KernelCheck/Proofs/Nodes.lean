import KernelCheck.Syntax.Outline
import Mathlib.Data.List.Lex

/-!
# The nodes behind an outline

An outline lists visits, and two nodes may give the same visit.  Here a node is known by the
way that leads to it from the whole module, one descent after the other.

1. `Node.parts` — the nodes directly below a node, by the role that they play in it, and
   `NodeRole.inOrder`, the order in which these roles stand in the source.
2. `Node.paths` — the ways to all nodes.  None is left out (`Node.mem_paths_iff`), and they come
   in source order, each once (`Node.pairwise_paths`).
3. `Node.outline_eq` — what lies below a node in its outline are its parts, in their order.
4. `Node.map_preorder` — a traversal lists the visits of the nodes, one by one, except those
   below a pruned node.
5. `Node.events_mono` — further pruning takes visits away, and neither adds nor moves one.

`outline_lists_nodes` puts them together.
-/

namespace KernelCheck

/-- A node of the syntax tree, with all that lies below it. -/
inductive Node where
  | module (m : Module)
  | function (f : Function)
  | block (b : Block)
  | stmt (s : Stmt)
  | forLoop (header : LoopHeader) (body : Stmt)
  | declaration (d : Declaration)
  | declarator (d : Declarator)
  | marker (m : Marker)
  | expr (e : Expr)
  /-- The mention of a variable that an expression is. -/
  | ident (name : Name) (span : Span)

/-- The role that a node plays in the one above it. -/
inductive NodeRole where
  | marker | dim | init | test | update
  /-- What is tested before anything else. -/
  | condition
  | body
  /-- What is tested behind a body. -/
  | again
  | thenBranch | elseBranch | left | right | callee | argument | function | stmt | declarator
  /-- The only node below one that has no more than one. -/
  | content
  deriving DecidableEq

/-- The roles in the order in which they stand in the source. -/
def NodeRole.inOrder : List NodeRole :=
  [marker, dim, init, test, update, condition, body, again, thenBranch, elseBranch, left, right,
   callee, argument, function, stmt, declarator, content]

/-- One step down the tree: a role, and which one of the nodes that play it. -/
structure Descent where
  role : NodeRole
  index : Nat
  deriving DecidableEq

/-- Of two nodes directly below a third, the first one stands before the other in the source. -/
def Descent.Before (a b : Descent) : Prop :=
  NodeRole.inOrder.idxOf a.role < NodeRole.inOrder.idxOf b.role ∨
    a.role = b.role ∧ a.index < b.index

/-! ## Parts of a node -/

/-- The nodes that play a role in an expression. -/
def Expr.parts : Expr → NodeRole → List Node
  | .ident name s, .content => [.ident name s]
  | .unary _ a _, .content | .member a _ _ _, .content | .cast _ a _, .content => [.expr a]
  | .binary _ a _ _, .left | .assign _ a _ _, .left | .index a _ _, .left => [.expr a]
  | .binary _ _ b _, .right | .assign _ _ b _, .right | .index _ b _, .right => [.expr b]
  | .call f _ _, .callee => [.expr f]
  | .call _ args _, .argument | .comma args _, .argument => args.map .expr
  | .ternary c _ _ _, .condition => [.expr c]
  | .ternary _ a _ _, .thenBranch => [.expr a]
  | .ternary _ _ b _, .elseBranch => [.expr b]
  | _, _ => []

/-- The nodes that play a role in a statement. -/
def Stmt.parts : Stmt → NodeRole → List Node
  | .expr e _, .content => [.expr e]
  | .decl d _, .content => [.declaration d]
  | .block stmts blockSpan _, .content => [.block ⟨stmts, blockSpan⟩]
  | .forLoop header body _, .content => [.forLoop header body]
  | .ifThen c _ _, .condition | .ifElse c _ _ _, .condition => [.expr c]
  | .whileLoop c _ _, .condition | .switch c _ _, .condition => [.expr c]
  | .ifThen _ a _, .thenBranch | .ifElse _ a _ _, .thenBranch => [.stmt a]
  | .ifElse _ _ b _, .elseBranch => [.stmt b]
  | .whileLoop _ a _, .body | .switch _ a _, .body | .doWhile a _ _, .body => [.stmt a]
  | .doWhile _ c _, .again => [.expr c]
  | .caseLabel value _, .content | .returnJump value _, .content => (value.map .expr).toList
  | _, _ => []

/-- The node that an init clause is. -/
def ForInit.node : ForInit → Node
  | .decl d => .declaration d
  | .expr e => .expr e

namespace Node

/-- The nodes that play a role in a node, in source order. -/
def parts : Node → NodeRole → List Node
  | module m, .function => m.functions.map .function
  | function f, .marker => f.markers.map .marker
  | function f, .body => [.block f.body]
  | block b, .stmt => b.stmts.map .stmt
  | stmt s, role => s.parts role
  | forLoop header _, .marker => header.markers.map .marker
  | forLoop header _, .init => (header.init.map ForInit.node).toList
  | forLoop header _, .test => (header.test.map .expr).toList
  | forLoop header _, .update => (header.update.map .expr).toList
  | forLoop _ body, .body => [.stmt body]
  | declaration d, .marker => d.markers.map .marker
  | declaration d, .declarator => d.declarators.map .declarator
  | declarator d, .dim => d.dims.map .expr
  | declarator d, .init => (d.init.map .expr).toList
  | expr e, role => e.parts role
  | _, _ => []

/-- The node directly below a node to which a descent leads. -/
def child? (n : Node) (d : Descent) : Option Node := (n.parts d.role)[d.index]?

/-- The node to which a path leads. -/
def at? : Node → List Descent → Option Node
  | n, [] => some n
  | n, d :: rest => (n.child? d).bind (·.at? rest)

/-- The nodes that a path goes through above its end. -/
def above : Node → List Descent → List Node
  | _, [] => []
  | n, d :: rest => n :: ((n.child? d).map (·.above rest)).getD []

/-- What a traversal says of a node, under the hook of its sort. -/
def visit : Node → Visit
  | module m => .module m.kernels.length
  | function f => .function f.span
  | block b => .block b.span
  | stmt s => s.visit
  | forLoop header _ => .forLoop header.span
  | declaration d => .declaration d.span
  | declarator d => .declarator d.span
  | marker m => .marker m.kind
  | expr e => .expr e.span
  | ident name s => .ident name s

/-- The outline of a node. -/
def outline : Node → Outline
  | module m => m.outline
  | function f => f.outline
  | block b => b.outline
  | stmt s => s.outline
  | forLoop header body => .node (.forLoop header.span) (header.outlines ++ [body.outline])
  | declaration d => d.outline
  | declarator d => d.outline
  | marker m => m.outline
  | expr e => e.outline
  | ident name s => .leaf (.ident name s)

/-- The nodes directly below a node, with the ways to them. -/
def children (n : Node) : List (Descent × Node) :=
  NodeRole.inOrder.flatMap fun role => (n.parts role).mapIdx fun i c => (⟨role, i⟩, c)

/-- The children of a node are what single descents lead to. -/
theorem mem_children_iff {n : Node} {d : Descent} {c : Node} :
    (d, c) ∈ n.children ↔ n.child? d = some c := by
  have hrole : d.role ∈ NodeRole.inOrder := by cases d.role <;> decide
  simp only [children, List.mem_flatMap, List.mem_mapIdx, child?, List.getElem?_eq_some_iff]
  constructor
  · rintro ⟨role, -, i, hi, heq⟩
    cases heq
    exact ⟨hi, rfl⟩
  · rintro ⟨hi, rfl⟩
    exact ⟨d.role, hrole, d.index, hi, rfl⟩

/-- The children of a node are in source order. -/
theorem pairwise_children (n : Node) : n.children.Pairwise fun a b => a.1.Before b.1 := by
  have hroles : NodeRole.inOrder.Pairwise fun a b =>
      NodeRole.inOrder.idxOf a < NodeRole.inOrder.idxOf b := by
    decide
  refine List.pairwise_flatMap.mpr ⟨?_, hroles.imp ?_⟩
  · intro role _
    rw [List.pairwise_iff_getElem]
    intro i j hi hj hij
    rw [List.getElem_mapIdx, List.getElem_mapIdx]
    exact Or.inr ⟨rfl, hij⟩
  · intro role role' hlt a ha b hb
    obtain ⟨i, hi, rfl⟩ := List.mem_mapIdx.mp ha
    obtain ⟨j, hj, rfl⟩ := List.mem_mapIdx.mp hb
    exact Or.inl hlt

end Node

/-! ## The parts in the outline -/

/-- The outlines of several expressions, one by one. -/
theorem Expr.outlineList_eq_map (es : List Expr) : outlineList es = es.map outline := by
  induction es with
  | nil => rfl
  | cons e rest ih => rw [outlineList, ih, List.map_cons]

/-- The outline of an expression that may be missing. -/
theorem Expr.outlineOption_eq_map (e : Option Expr) :
    outlineOption e = (e.map outline).toList := by
  cases e <;> rfl

/-- The outlines of several statements, one by one. -/
theorem Stmt.outlineList_eq_map (stmts : List Stmt) : outlineList stmts = stmts.map outline := by
  induction stmts with
  | nil => rfl
  | cons s rest ih => rw [outlineList, ih, List.map_cons]

/-- The node of an init clause has the outline of the clause. -/
theorem ForInit.outline_node (init : ForInit) : init.node.outline = init.outline := by
  cases init <;> rfl

/-- What lies below a node in its outline: its parts, role by role. -/
def Node.partOutlines (n : Node) : List Outline :=
  NodeRole.inOrder.flatMap fun role => (n.parts role).map Node.outline

/-- An expression shows itself, and then its parts. -/
theorem Expr.outline_eq (e : Expr) :
    e.outline = .node (.expr e.span) (Node.expr e).partOutlines := by
  cases e <;> simp [outline, span, Outline.leaf, Node.partOutlines, NodeRole.inOrder, Node.parts,
    parts, Node.outline, outlineList_eq_map, Function.comp_def]

/-- A statement shows itself, and then its parts. -/
theorem Stmt.outline_eq (s : Stmt) : s.outline = .node s.visit (Node.stmt s).partOutlines := by
  cases s <;> simp [outline, Outline.leaf, Node.partOutlines, NodeRole.inOrder, Node.parts, parts,
    Node.outline, Block.outline, Expr.outlineOption_eq_map, Option.toList_map, Function.comp_def]

namespace Node

/-- **Every node** shows itself, and then its parts. -/
theorem outline_eq_parts (n : Node) : n.outline = .node n.visit n.partOutlines := by
  cases n with
  | stmt s => exact s.outline_eq
  | expr e => exact e.outline_eq
  | module m =>
      simp [outline, Module.outline, visit, partOutlines, NodeRole.inOrder, parts,
        Function.comp_def]
  | function f =>
      simp [outline, Function.outline, visit, partOutlines, NodeRole.inOrder, parts,
        Function.comp_def]
  | block b =>
      simp [outline, Block.outline, visit, partOutlines, NodeRole.inOrder, parts,
        Stmt.outlineList_eq_map, Function.comp_def]
  | forLoop header body =>
      have hinit : (header.init.map ForInit.node).toList.map outline =
          (header.init.map ForInit.outline).toList := by
        cases header.init with
        | none => rfl
        | some init => exact congrArg ([·]) init.outline_node
      simp [outline, LoopHeader.outlines, visit, partOutlines, NodeRole.inOrder, parts,
        Expr.outlineOption_eq_map, Option.toList_map, ← hinit, Function.comp_def]
  | declaration d =>
      simp [outline, Declaration.outline, visit, partOutlines, NodeRole.inOrder, parts,
        Function.comp_def]
  | declarator d =>
      simp [outline, Declarator.outline, visit, partOutlines, NodeRole.inOrder, parts,
        Expr.outlineList_eq_map, Expr.outlineOption_eq_map, Option.toList_map, Function.comp_def]
  | marker m => rfl
  | ident name s => rfl

/-- What lies below a node in its outline are the outlines of its children. -/
theorem outline_eq (n : Node) : n.outline = .node n.visit (n.children.map (·.2.outline)) := by
  have hrole : ∀ role, ((n.parts role).mapIdx fun i c => ((⟨role, i⟩ : Descent), c)).map
      (·.2.outline) = (n.parts role).map outline := by
    intro role
    apply List.ext_getElem <;> simp
  rw [outline_eq_parts, partOutlines, children, List.map_flatMap]
  simp only [hrole]

/-! ## Paths -/

/-- A child has a smaller outline than its parent, which the recursion over paths rests on. -/
theorem sizeOf_outline_lt {n : Node} {a : Descent × Node} (h : a ∈ n.children) :
    sizeOf a.2.outline < sizeOf n.outline := by
  have hmem := List.sizeOf_lt_of_mem (List.mem_map_of_mem (f := (·.2.outline)) h)
  rw [outline_eq n, Outline.node.sizeOf_spec]
  omega

/-- What holds of a node whenever it holds of the nodes directly below it holds of every node. -/
theorem inductionBelow {P : Node → Prop} (step : ∀ n : Node, (∀ a ∈ n.children, P a.2) → P n)
    (n : Node) : P n :=
  step n fun a _ => inductionBelow step a.2
termination_by sizeOf n.outline
decreasing_by exact sizeOf_outline_lt ‹_›

/-- The ways to a node itself and to all that lie below it, in source order. -/
def paths (n : Node) : List (List Descent) :=
  [] :: n.children.attach.flatMap fun a => a.1.2.paths.map (a.1.1 :: ·)
termination_by sizeOf n.outline
decreasing_by exact sizeOf_outline_lt a.2

/-- The paths from a node: none, and those through each of its children. -/
theorem paths_eq (n : Node) :
    n.paths = [] :: n.children.flatMap fun a => a.2.paths.map (a.1 :: ·) := by
  rw [paths, ← List.flatMap_map Subtype.val fun a : Descent × Node => a.2.paths.map (a.1 :: ·),
    List.attach_map_subtype_val]

/-- **Every node is on a path**, and a path leads to a node. -/
theorem mem_paths_iff {n : Node} {p : List Descent} : p ∈ n.paths ↔ ∃ c, n.at? p = some c := by
  induction p generalizing n with
  | nil =>
      rw [paths_eq]
      simp [at?]
  | cons d rest ih =>
      rw [paths_eq]
      simp only [at?, List.mem_cons, List.mem_flatMap, List.mem_map, Option.bind_eq_some_iff,
        reduceCtorEq, false_or]
      constructor
      · rintro ⟨⟨_, below⟩, hmem, _, hrest, heq⟩
        cases heq
        obtain ⟨c, hc⟩ := ih.mp hrest
        exact ⟨c, below, mem_children_iff.mp hmem, hc⟩
      · rintro ⟨c, below, hbelow, hc⟩
        exact ⟨(d, below), mem_children_iff.mpr hbelow, rest, ih.mpr ⟨c, hc⟩, rfl⟩

/-- **Paths come in source order**, that of a node before all that lie below it. -/
theorem pairwise_paths (n : Node) : n.paths.Pairwise (List.Lex Descent.Before) := by
  induction n using inductionBelow with
  | step n ih =>
      rw [paths_eq, List.pairwise_cons, List.pairwise_flatMap]
      refine ⟨?_, ?_, n.pairwise_children.imp ?_⟩
      · intro p hp
        obtain ⟨a, -, hp⟩ := List.mem_flatMap.mp hp
        obtain ⟨rest, -, rfl⟩ := List.mem_map.mp hp
        exact .nil
      · intro a ha
        exact List.pairwise_map.mpr ((ih a ha).imp List.Lex.cons)
      · intro a b hab p hp q hq
        obtain ⟨_, -, rfl⟩ := List.mem_map.mp hp
        obtain ⟨_, -, rfl⟩ := List.mem_map.mp hq
        exact .rel hab

/-- A path that comes before another one is not the same. -/
theorem ne_of_lex {p q : List Descent} (h : List.Lex Descent.Before p q) : p ≠ q := by
  induction h with
  | nil => simp
  | rel hab =>
      intro heq
      obtain ⟨rfl, -⟩ := List.cons.inj heq
      rcases hab with hlt | ⟨-, hlt⟩ <;> exact absurd hlt (Nat.lt_irrefl _)
  | cons _ ih => exact fun heq => ih (List.cons.inj heq).2

/-- No path occurs twice. -/
theorem nodup_paths (n : Node) : n.paths.Nodup := n.pairwise_paths.imp ne_of_lex

/-! ## Pruning -/

/-- Nothing above the end of the path is pruned. -/
def isShown (n : Node) (pruned : Hook → Bool) (p : List Descent) : Bool :=
  (n.above p).all fun a => !pruned a.visit.hook

/-- The ways to the nodes that a traversal meets, in source order. -/
def shown (n : Node) (pruned : Hook → Bool) : List (List Descent) :=
  n.paths.filter (n.isShown pruned)

/-- The visit of the node to which a path leads. -/
def visitAt (n : Node) (p : List Descent) : Option Visit := (n.at? p).map visit

/-- Below a child a node is shown if the parent is not pruned and the child shows it. -/
theorem isShown_cons {n : Node} {d : Descent} {c : Node} (hc : n.child? d = some c)
    (pruned : Hook → Bool) (rest : List Descent) :
    n.isShown pruned (d :: rest) = (!pruned n.visit.hook && c.isShown pruned rest) := by
  simp [isShown, above, hc]

/-- A path through a child leads on from the child. -/
theorem visitAt_cons {n : Node} {d : Descent} {c : Node} (hc : n.child? d = some c)
    (rest : List Descent) : n.visitAt (d :: rest) = c.visitAt rest := by
  simp [visitAt, at?, hc]

/-- Below a node that is not pruned, what is met below each child is met. -/
theorem shown_eq (n : Node) (pruned : Hook → Bool) :
    n.shown pruned = [] :: if pruned n.visit.hook then [] else
      n.children.flatMap fun a => (a.2.shown pruned).map (a.1 :: ·) := by
  have hbelow : ∀ a ∈ n.children, (a.2.paths.map (a.1 :: ·)).filter (n.isShown pruned) =
      if pruned n.visit.hook then [] else (a.2.shown pruned).map (a.1 :: ·) := by
    intro a ha
    have hcons := isShown_cons (mem_children_iff.mp ha) pruned
    rw [List.filter_map, shown]
    split <;> rename_i hpruned <;> simp [Function.comp_def, hcons, hpruned]
  rw [shown, paths_eq, List.filter_cons_of_pos (by rfl), List.filter_flatMap,
    List.flatMap_congr hbelow]
  split <;> simp

end Node

/-- Several outlines are visited one after the other. -/
theorem Outline.preorderList_eq_flatMap (pruned : Hook → Bool) (os : List Outline) :
    preorderList pruned os = os.flatMap (preorder pruned) := by
  induction os with
  | nil => rfl
  | cons o rest ih => rw [preorderList, ih, List.flatMap_cons]

namespace Node

/-- **A traversal lists the visits of the nodes that it meets**, each once and in their order. -/
theorem map_preorder (n : Node) (pruned : Hook → Bool) :
    (n.outline.preorder pruned).map some = (n.shown pruned).map n.visitAt := by
  induction n using inductionBelow with
  | step n ih =>
      rw [outline_eq, Outline.preorder, shown_eq, List.map_cons, List.map_cons]
      congr 1
      split
      · rfl
      · rw [Outline.preorderList_eq_flatMap, List.flatMap_map, List.map_flatMap, List.map_flatMap]
        refine List.flatMap_congr fun a ha => ?_
        rw [ih a ha, List.map_map]
        exact List.map_congr_left fun p _ => (visitAt_cons (mem_children_iff.mp ha) p).symm

/-- If nothing is pruned, everything is shown. -/
theorem shown_none (n : Node) : n.shown (fun _ => false) = n.paths := by
  simp [shown, isShown]

/-- What is shown in spite of more pruning is shown with less. -/
theorem isShown_mono {n : Node} {less more : Hook → Bool} (h : ∀ k, less k → more k)
    {p : List Descent} (hp : n.isShown more p) : n.isShown less p := by
  simp only [isShown, List.all_eq_true, Bool.not_eq_true', Bool.eq_false_iff] at hp ⊢
  exact fun a ha hless => hp a ha (h _ hless)

/-- Further pruning takes away what lies below the nodes that it adds, and nothing else. -/
theorem shown_mono (n : Node) {less more : Hook → Bool} (h : ∀ k, less k → more k) :
    n.shown more = (n.shown less).filter (n.isShown more) := by
  rw [shown, shown, List.filter_filter]
  refine List.filter_congr fun p _ => ?_
  cases hp : n.isShown more p with
  | false => rfl
  | true => rw [isShown_mono h hp, Bool.and_self]

/-- The visits of a traversal, each with the way to its node. -/
def events (n : Node) (pruned : Hook → Bool) : List (List Descent × Visit) :=
  (n.shown pruned).zip (n.outline.preorder pruned)

/-- Two lists in step are a list with what belongs to each of its members. -/
theorem zip_eq_filterMap {α β : Type} {f : α → Option β} {as : List α} {bs : List β}
    (h : bs.map some = as.map f) : as.zip bs = as.filterMap fun a => (f a).map (a, ·) := by
  induction as generalizing bs with
  | nil => rfl
  | cons a as ih =>
      obtain ⟨b, bs, rfl, hb, hrest⟩ := List.map_eq_cons_iff.mp h
      rw [List.zip_cons_cons, ih hrest, List.filterMap_cons_some (by rw [← hb]; rfl)]

/-- The events of a traversal, path by path. -/
theorem events_eq (n : Node) (pruned : Hook → Bool) :
    n.events pruned = (n.shown pruned).filterMap fun p => (n.visitAt p).map (p, ·) :=
  zip_eq_filterMap (n.map_preorder pruned)

/-- **The events of a traversal** are what it visits, in order. -/
theorem map_snd_events (n : Node) (pruned : Hook → Bool) :
    (n.events pruned).map Prod.snd = n.outline.preorder pruned := by
  have hlength : (n.outline.preorder pruned).length = (n.shown pruned).length := by
    simpa using congrArg List.length (n.map_preorder pruned)
  exact List.map_snd_zip hlength.le

/-- With more pruning fewer events are left, in the same order. -/
theorem events_mono (n : Node) {less more : Hook → Bool} (h : ∀ k, less k → more k) :
    n.events more = (n.events less).filter fun e => n.isShown more e.1 := by
  rw [events_eq, events_eq, shown_mono n h, List.filter_filterMap, List.filterMap_filter]
  refine List.filterMap_congr fun p _ => ?_
  cases n.visitAt p with
  | none => simp
  | some v => simp [Option.filter]

end Node

/-- What a traversal of a module lists.

* The nodes of the module are known by their paths: these come in source order, each once, and
  there is one for every node.
* With nothing pruned there is one visit for each of them, that of its node, in the same order.
* With some hooks pruned the same holds of the nodes that do not lie below a pruned one.
* If more hooks are pruned, the visits are the ones from before, in the same order, but for those
  of the nodes that lie below one of a pruned hook. -/
theorem outline_lists_nodes (m : Module) :
    let root := Node.module m
    root.paths.Pairwise (List.Lex Descent.Before) ∧ root.paths.Nodup ∧
      (∀ p, p ∈ root.paths ↔ ∃ n, root.at? p = some n) ∧
      (m.outline.preorder fun _ => false).map some = root.paths.map root.visitAt ∧
      (∀ pruned, (m.outline.preorder pruned).map some =
        (root.paths.filter (root.isShown pruned)).map root.visitAt) ∧
      ∀ less more : Hook → Bool, (∀ hook, less hook → more hook) →
        m.outline.preorder more =
          ((root.events less).filter fun e => root.isShown more e.1).map Prod.snd := by
  intro root
  refine ⟨root.pairwise_paths, root.nodup_paths, fun _ => Node.mem_paths_iff, ?_,
    root.map_preorder, fun less more h => ?_⟩
  · rw [← root.shown_none]
    exact root.map_preorder _
  · rw [← root.events_mono h]
    exact (root.map_snd_events more).symm

/-- `@kernel void f() { do @outer for (int i = 0; i; ) { } while (1); }` -/
def Module.doSample : Module where
  functions := [{
    name := ⟨1⟩
    params := []
    returns := { base := .void }
    body := {
      stmts := [.doWhile
        (.forLoop
          { init := some (.decl {
              type := { base := .int }
              declarators := [⟨⟨2⟩, [], some (.int 0 ⟨14, 15⟩), ⟨10, 15⟩⟩]
              markers := []
              span := ⟨6, 15⟩ })
            test := some (.ident ⟨2⟩ ⟨17, 18⟩)
            update := none
            markers := [⟨.outer, ⟨3, 4⟩⟩]
            span := ⟨3, 24⟩ }
          (.block [] ⟨22, 24⟩ ⟨22, 24⟩) ⟨3, 24⟩)
        (.int 1 ⟨26, 27⟩) ⟨2, 28⟩]
      span := ⟨1, 29⟩ }
    markers := [⟨.kernel, ⟨0, 1⟩⟩]
    span := ⟨0, 29⟩ }]

/-- A traversal that passes over the parts of declarations, and one that passes over the parts
of loops as well. -/
theorem outline_lists_nodes_doSample :
    let less : Hook → Bool := (· == .declaration)
    let more : Hook → Bool := fun hook => hook == .declaration || hook == .forLoop
    let root := Node.module Module.doSample
    (∀ hook, less hook → more hook) ∧
      Module.doSample.outline.preorder less =
        [.module 1, .function ⟨0, 29⟩, .marker .kernel, .block ⟨1, 29⟩, .stmt ⟨2, 28⟩ false 1,
         .stmt ⟨3, 24⟩ true 1, .forLoop ⟨3, 24⟩, .marker .outer, .declaration ⟨6, 15⟩,
         .expr ⟨17, 18⟩, .ident ⟨2⟩ ⟨17, 18⟩, .stmt ⟨22, 24⟩ false 0, .block ⟨22, 24⟩,
         .expr ⟨26, 27⟩] ∧
      Module.doSample.outline.preorder more =
        ((root.events less).filter fun e => root.isShown more e.1).map Prod.snd :=
  have hsub : ∀ hook : Hook, (hook == .declaration) = true →
      (hook == .declaration || hook == .forLoop) = true := by
    simp +contextual
  ⟨hsub, by decide, (outline_lists_nodes Module.doSample).2.2.2.2.2 _ _ hsub⟩

end KernelCheck
