import KernelCheck.Proofs.Relabelling.Basic
import KernelCheck.Syntax.Builder
import Mathlib.Algebra.Order.Group.Multiset
import Mathlib.Tactic.Abel

/-!
# The spans of built nodes

A builder hands out spans from a counter, and nothing hands out spans but it.  So the spans
of all that has been built can be accounted for to the last one.

1. Span number `n` covers byte `2 * n`, and a run of the counter is a range of such numbers
   (`Builder.slots`).
2. A construction step *spends* what it is given if its result holds the spans of that, and
   of the nodes that it makes, once each (`Builder.Spends`).  Steps that are done one after
   the other spend what both are given (`Spends.bind`), and so every call of a builder does
   (`Call.spends`).
3. A workshop holds what has been built and stands in nothing else yet.  A call takes parts
   from the stock and puts one part back.

`built_spans` concludes that whatever calls were made, in whatever order and however nested,
the nodes of all parts in stock have spans of their own, which neither overlap nor reach the
next one.
-/

namespace KernelCheck

/-! ## Spans in a part -/

/-- The span in an atom, be it that of a node or that of a statement around one. -/
def Atom.span? : Atom → Option Span
  | .place s | .wrapper s => some s
  | _ => none

/-- The spans of all nodes, each as often as it occurs. -/
def nodeSpans (as : List Atom) : Multiset Span := ↑(as.filterMap (·.span?))

/-- No nodes have no spans. -/
@[simp] theorem nodeSpans_nil : nodeSpans [] = 0 := rfl

/-- The spans of two lists of nodes together. -/
@[simp] theorem nodeSpans_append (as bs : List Atom) :
    nodeSpans (as ++ bs) = nodeSpans as + nodeSpans bs := by
  rw [nodeSpans, List.filterMap_append, ← Multiset.coe_add]
  rfl

/-- A place brings its span in. -/
@[simp] theorem nodeSpans_cons_place (s : Span) (as : List Atom) :
    nodeSpans (.place s :: as) = {s} + nodeSpans as := rfl

/-- A wrapper brings its span in. -/
@[simp] theorem nodeSpans_cons_wrapper (s : Span) (as : List Atom) :
    nodeSpans (.wrapper s :: as) = {s} + nodeSpans as := rfl

/-- A variable brings no span in. -/
@[simp] theorem nodeSpans_cons_var (n : Name) (as : List Atom) :
    nodeSpans (.var n :: as) = nodeSpans as := rfl

/-- A word brings no span in. -/
@[simp] theorem nodeSpans_cons_word (n : Name) (as : List Atom) :
    nodeSpans (.word n :: as) = nodeSpans as := rfl

/-- The name of a function brings no span in. -/
@[simp] theorem nodeSpans_cons_function (n : Name) (as : List Atom) :
    nodeSpans (.function n :: as) = nodeSpans as := rfl

/-- A type has no span. -/
@[simp] theorem nodeSpans_type (c : CType) : nodeSpans c.atoms = 0 := by
  obtain ⟨base, u, k, p⟩ := c
  cases base <;> rfl

/-- A marker has its own span. -/
@[simp] theorem nodeSpans_marker (kind : MarkerKind) (s : Span) :
    nodeSpans (Marker.mk kind s).atoms = {s} := by
  cases kind <;> rfl

/-- Something built. -/
inductive Part where
  /-- A span without a node. -/
  | span (s : Span)
  | marker (m : Marker)
  | expr (e : Expr)
  | declarator (d : Declarator)
  | declaration (d : Declaration)
  | init (i : ForInit)
  | stmt (s : Stmt)
  | param (p : Param)
  | function (f : Function)

namespace Part

/-- The places and names in a part. -/
def atoms : Part → List Atom
  | span s => [.place s]
  | marker m => m.atoms
  | expr e => e.atoms
  | declarator d => d.atoms
  | declaration d => d.atoms
  | init i => i.atoms
  | stmt s => s.atoms
  | param p => p.atoms
  | function f => f.atoms

/-- The spans of the nodes in a part. -/
def spans (p : Part) : List Span := p.atoms.filterMap (·.span?)

end Part

namespace Builder

/-! ## Spans that are handed out -/

/-- The span that is handed out at an offset. -/
def slot (offset : Nat) : Span := ⟨offset, offset + 1⟩

/-- The next `n` spans that are handed out from an offset on. -/
def slots (offset n : Nat) : Multiset Span := ↑((List.range n).map fun k => slot (offset + 2 * k))

/-- Slots are taken one after the other. -/
theorem slots_add (offset m n : Nat) :
    slots offset (m + n) = slots offset m + slots (offset + 2 * m) n := by
  have hlater : (fun k => slot (offset + 2 * (m + k))) =
      fun k => slot (offset + 2 * m + 2 * k) := by
    funext k
    congr 1
    omega
  rw [slots, List.range_add, List.map_append, List.map_map, ← Multiset.coe_add]
  unfold slots
  rw [← hlater]
  rfl

/-- A construction step uses up what it is given: its result holds the spans of that and of
the nodes that are made, and no others. -/
def Spends {α : Type} (act : Build α) (given : Multiset Span) (held : α → Multiset Span) : Prop :=
  ∀ b, ∃ n, (act.run b).2.nextOffset = b.nextOffset + 2 * n ∧
    held (act.run b).1 = given + slots b.nextOffset n

namespace Spends

variable {α β : Type} {act : Build α} {f : α → Build β} {given given' : Multiset Span}
  {held : α → Multiset Span} {held' : β → Multiset Span}

/-- A node takes one span more than its parts. -/
theorem node {make : Span → α} (h : ∀ s, held (make s) = {s} + given) :
    Spends (Builder.node make) given held := by
  intro b
  refine ⟨1, rfl, ?_⟩
  rw [add_comm]
  exact h _

/-- A step that only looks at names, or adds one. -/
theorem names (f : Interner → α × Interner) :
    Spends (modifyGet fun b => ((f b.names).1, { b with names := (f b.names).2 })) 0
      (fun _ => 0) := by
  intro b
  exact ⟨0, rfl, rfl⟩

/-- Nothing is taken for what is there already. -/
theorem pure {a : α} (h : held a = given) : Spends (Pure.pure a) given held := by
  intro b
  exact ⟨0, rfl, h.trans (add_zero given).symm⟩

/-- A step, and one that goes on with its result and with more. -/
theorem bind (more : Multiset Span) (h : Spends act given held)
    (hf : ∀ a, Spends (f a) (held a + more) held') : Spends (act >>= f) (given + more) held' := by
  intro b
  obtain ⟨m, hm, hheld⟩ := h b
  obtain ⟨n, hn, hheld'⟩ := hf (act.run b).1 (act.run b).2
  refine ⟨m + n, ?_, ?_⟩
  · calc ((act >>= f).run b).2.nextOffset
        = (act.run b).2.nextOffset + 2 * n := hn
      _ = b.nextOffset + 2 * (m + n) := by rw [hm]; omega
  · calc held' ((act >>= f).run b).1
        = held (act.run b).1 + more + slots (act.run b).2.nextOffset n := hheld'
      _ = given + slots b.nextOffset m + more + slots (b.nextOffset + 2 * m) n := by
          rw [hheld, hm]
      _ = given + more + slots b.nextOffset (m + n) := by rw [slots_add]; abel

/-- The spans that go in may be told in another way. -/
theorem of_eq (h : Spends act given held) (heq : given = given') : Spends act given' held := heq ▸ h

/-- A step, and one that goes on with its result and nothing else. -/
theorem andThen (h : Spends act given held) (hf : ∀ a, Spends (f a) (held a) held') :
    Spends (act >>= f) given held' :=
  (h.bind 0 fun a => (hf a).of_eq (add_zero _).symm).of_eq (add_zero given)

/-- A step that is given nothing, and one that goes on with its result. -/
theorem before (h : Spends act 0 held) (hf : ∀ a, Spends (f a) (held a + given) held') :
    Spends (act >>= f) given held' :=
  (h.bind given hf).of_eq (zero_add given)

/-- A step that makes no node comes first. -/
theorem silent (h : Spends act 0 fun _ => 0) (hf : ∀ a, Spends (f a) given held') :
    Spends (act >>= f) given held' :=
  h.before fun a => (hf a).of_eq (zero_add given).symm

/-- What is made of a result without a span holds the same spans. -/
theorem map {g : α → β} (h : Spends act given held) (hg : ∀ a, held' (g a) = held a) :
    Spends (g <$> act) given held' := by
  intro b
  obtain ⟨n, hn, hheld⟩ := h b
  exact ⟨n, hn, (hg _).trans hheld⟩

end Spends

/-! ## The methods of a builder -/

/-- A name takes no span. -/
theorem spends_name (s : String) : Spends (name s) 0 fun _ => 0 :=
  .names fun t => t.intern s

/-- A fresh span is a span taken. -/
theorem spends_freshSpan : Spends freshSpan 0 fun s => {s} :=
  fun _ => ⟨1, rfl, (zero_add _).symm⟩

/-- A marker takes one span. -/
theorem spends_marker (kind : MarkerKind) :
    Spends (marker kind) 0 fun m => nodeSpans m.atoms :=
  .node fun s => nodeSpans_marker kind s

/-- So does a marker with a given word. -/
theorem spends_markerNamed (word : String) :
    Spends (markerNamed word) 0 fun m => nodeSpans m.atoms :=
  .silent (.names (MarkerKind.ofText word)) spends_marker

/-- Several markers take one span each. -/
theorem spends_markers (kinds : List MarkerKind) :
    Spends (kinds.mapM marker) 0 fun ms => nodeSpans (ms.flatMap (·.atoms)) := by
  induction kinds with
  | nil => exact .pure rfl
  | cons kind rest ih =>
      rw [List.mapM_cons]
      refine (spends_marker kind).andThen fun m => ?_
      refine (ih.bind (nodeSpans m.atoms) fun ms => ?_).of_eq (zero_add _)
      refine .pure ?_
      rw [List.flatMap_cons, nodeSpans_append, add_comm]

/-! ### Expressions -/

/-- A variable takes one span. -/
theorem spends_ident (s : String) : Spends (ident s) 0 fun e => nodeSpans e.atoms :=
  .silent (spends_name s) fun _ => .node fun _ => rfl

/-- A number takes one span. -/
theorem spends_int (value : Int) : Spends (int value) 0 fun e => nodeSpans e.atoms :=
  .node fun _ => rfl

/-- A unary expression takes one span besides those of its operand. -/
theorem spends_unary (op : UnaryOp) (e : Expr) :
    Spends (unary op e) (nodeSpans e.atoms) fun e => nodeSpans e.atoms :=
  .node fun _ => rfl

/-- A binary expression takes one span besides those of its operands. -/
theorem spends_binary (op : BinaryOp) (a b : Expr) :
    Spends (binary op a b) (nodeSpans a.atoms + nodeSpans b.atoms) fun e => nodeSpans e.atoms :=
  .node fun _ => by simp [Expr.atoms]

/-- A call takes one span besides those of its arguments. -/
theorem spends_call (callee : String) (args : List Expr) :
    Spends (call callee args) (nodeSpans (Expr.atomsList args)) fun e => nodeSpans e.atoms :=
  (spends_ident callee).before fun f => .node fun s => by simp [Expr.atoms]

/-- A member takes one span besides those of its base. -/
theorem spends_member (base : Expr) (field : String) (arrow : Bool) :
    Spends (member base field arrow) (nodeSpans base.atoms) fun e => nodeSpans e.atoms :=
  .silent (spends_name field) fun _ => .node fun _ => rfl

/-- The test of a counting loop takes two spans besides those of its bound. -/
theorem spends_lt (var : String) (bound : Expr) :
    Spends (lt var bound) (nodeSpans bound.atoms) fun e => nodeSpans e.atoms :=
  (spends_ident var).before fun x => spends_binary .lt x bound

/-- The update of a counting loop takes two spans. -/
theorem spends_preInc (var : String) : Spends (preInc var) 0 fun e => nodeSpans e.atoms :=
  (spends_ident var).andThen (spends_unary .preInc)

/-! ### Declarations -/

/-- A declarator takes one span besides those of its dimensions and its initial value. -/
theorem spends_declarator (s : String) (dims : List Expr) (init : Option Expr) :
    Spends (declarator s dims init)
      (nodeSpans (Expr.atomsList dims) + nodeSpans (init.toList.flatMap (·.atoms)))
      fun d => nodeSpans d.atoms :=
  .silent (spends_name s) fun _ => .node fun _ => by simp [Declarator.atoms]

/-- A declaration takes one span besides those of its declarators and markers. -/
theorem spends_declaration (type : CType) (ds : List Declarator) (ms : List Marker) :
    Spends (declaration type ds ms)
      (nodeSpans (ds.flatMap (·.atoms)) + nodeSpans (ms.flatMap (·.atoms)))
      fun d => nodeSpans d.atoms :=
  .node fun _ => by
    simp [Declaration.atoms]
    abel

/-- A declaration statement takes one span besides those of the declaration. -/
theorem spends_declStmt (d : Declaration) :
    Spends (declStmt d) (nodeSpans d.atoms) fun s => nodeSpans s.atoms :=
  .node fun _ => rfl

/-- The declaration of a variable takes a span for each of its nodes. -/
theorem spends_var (type : CType) (s : String) (init : Option Expr) :
    Spends (var type s init) (nodeSpans (init.toList.flatMap (·.atoms)))
      fun s => nodeSpans s.atoms := by
  have hvar : Spends (declarator s [] init) (nodeSpans (init.toList.flatMap (·.atoms)))
      fun d => nodeSpans d.atoms := (spends_declarator s [] init).of_eq (zero_add _)
  refine hvar.andThen fun d => ?_
  refine Spends.andThen ((spends_declaration type [d] []).of_eq ?_) spends_declStmt
  simp

/-- A declaration of one variable without a value, with a marker that was made before. -/
theorem spends_marked (type : CType) (s : String) (dims : List Expr) (m : Marker) :
    Spends (do
        let d ← declarator s dims none
        declStmt (← declaration type [d] [m]))
      (nodeSpans m.atoms + nodeSpans (Expr.atomsList dims)) fun s => nodeSpans s.atoms := by
  refine ((spends_declarator s dims none).bind (nodeSpans m.atoms) fun d => ?_).of_eq ?_
  · refine Spends.andThen ((spends_declaration type [d] [m]).of_eq ?_) spends_declStmt
    simp
  · simp [add_comm]

/-- The declaration of a shared array takes a span for each of its nodes. -/
theorem spends_shared (s : String) (dims : List Expr) :
    Spends (shared s dims) (nodeSpans (Expr.atomsList dims)) fun s => nodeSpans s.atoms :=
  (spends_marker .shared).before (spends_marked { base := .float } s dims)

/-- The declaration of an exclusive variable takes a span for each of its nodes. -/
theorem spends_exclusive (s : String) :
    Spends (exclusive s) 0 fun s => nodeSpans s.atoms :=
  (spends_marker .exclusive).before (spends_marked { base := .float } s [])

/-- The init clause of a counting loop takes a span for each of its nodes. -/
theorem spends_induction (var : String) :
    Spends (induction var) 0 fun i => nodeSpans i.atoms := by
  refine (spends_int 0).andThen fun zero => ?_
  refine Spends.andThen ((spends_declarator var [] (some zero)).of_eq ?_) fun d => ?_
  · simp [Expr.atomsList]
  · refine Spends.andThen ((spends_declaration { base := .int } [d] []).of_eq ?_) fun d => ?_
    · simp
    · exact .pure rfl

/-! ### Statements -/

/-- A block takes spans for itself besides those of its statements. -/
theorem spends_block (stmts : List Stmt) :
    Spends (block stmts) (nodeSpans (Stmt.atomsList stmts)) fun s => nodeSpans s.atoms :=
  spends_freshSpan.before fun blockSpan => .node fun s => by simp [Stmt.atoms]

/-- A loop, whose header takes its span first. -/
theorem spends_loop (init : Option ForInit) (test update : Option Expr) (ms : List Marker)
    (body : Stmt) :
    Spends (do
        let header ← node (LoopHeader.mk init test update ms)
        node (Stmt.forLoop header body))
      (nodeSpans body.atoms + (nodeSpans (init.toList.flatMap (·.atoms)) +
        nodeSpans (test.toList.flatMap (·.atoms)) + nodeSpans (update.toList.flatMap (·.atoms)) +
        nodeSpans (ms.flatMap (·.atoms)))) fun s => nodeSpans s.atoms := by
  have hheader : Spends (node (LoopHeader.mk init test update ms))
      (nodeSpans (init.toList.flatMap (·.atoms)) + nodeSpans (test.toList.flatMap (·.atoms)) +
        nodeSpans (update.toList.flatMap (·.atoms)) + nodeSpans (ms.flatMap (·.atoms)))
      fun h => nodeSpans h.atoms := by
    refine .node fun _ => ?_
    simp only [LoopHeader.atoms, nodeSpans_cons_place, nodeSpans_append]
    abel
  refine (hheader.bind (nodeSpans body.atoms) fun h => .node fun _ => ?_).of_eq (add_comm _ _)
  simp [Stmt.atoms]

/-- A loop takes spans for itself and its body besides those of its clauses, markers and
statements. -/
theorem spends_forLoop (init : Option ForInit) (test update : Option Expr) (ms : List Marker)
    (body : List Stmt) :
    Spends (forLoop init test update ms body)
      (nodeSpans (init.toList.flatMap (·.atoms)) + nodeSpans (test.toList.flatMap (·.atoms)) +
        nodeSpans (update.toList.flatMap (·.atoms)) + nodeSpans (ms.flatMap (·.atoms)) +
        nodeSpans (Stmt.atomsList body)) fun s => nodeSpans s.atoms :=
  ((spends_block body).bind _ (spends_loop init test update ms)).of_eq (add_comm _ _)

/-- A counting loop takes spans for its clauses and its body besides those of what it is given. -/
theorem spends_canonicalFor (var : String) (bound : Expr) (ms : List Marker)
    (body : List Stmt) :
    Spends (canonicalFor var bound ms body)
      (nodeSpans bound.atoms + nodeSpans (ms.flatMap (·.atoms)) + nodeSpans (Stmt.atomsList body))
      fun s => nodeSpans s.atoms := by
  refine (spends_induction var).before fun init => ?_
  refine ((spends_lt var bound).bind (nodeSpans init.atoms +
    nodeSpans (ms.flatMap (·.atoms)) + nodeSpans (Stmt.atomsList body)) fun test => ?_).of_eq ?_
  · refine (spends_preInc var).before fun update => ?_
    refine (spends_forLoop (some init) (some test) (some update) ms body).of_eq ?_
    simp only [Option.toList_some, List.flatMap_singleton]
    abel
  · abel

/-- So does a counting loop with markers of given kinds. -/
theorem spends_markedFor (kinds : List MarkerKind) (var : String) (bound : Int)
    (body : List Stmt) :
    Spends (markedFor kinds var bound body) (nodeSpans (Stmt.atomsList body))
      fun s => nodeSpans s.atoms := by
  refine (spends_int bound).before fun limit => ?_
  refine (spends_markers kinds).before fun ms => ?_
  refine (spends_canonicalFor var limit ms body).of_eq ?_
  abel

/-- A statement around a block: a conditional with one branch, a loop or a switch. -/
theorem spends_around {make : Stmt → Span → Stmt} (given : Multiset Span) (body : List Stmt)
    (h : ∀ b s, nodeSpans (make b s).atoms = {s} + (given + nodeSpans b.atoms)) :
    Spends (do
        let b ← block body
        node (make b))
      (given + nodeSpans (Stmt.atomsList body)) fun s => nodeSpans s.atoms := by
  refine ((spends_block body).bind given fun b => .node fun s => ?_).of_eq (add_comm _ _)
  rw [h, add_comm given]

/-- A branching takes spans for itself and its branches besides those of what it is given. -/
theorem spends_ifStmt (c : Expr) (a : List Stmt) (b : Option (List Stmt)) :
    Spends (ifStmt c a b)
      (nodeSpans c.atoms + nodeSpans (Stmt.atomsList a) +
        nodeSpans (b.toList.flatMap Stmt.atomsList)) fun s => nodeSpans s.atoms := by
  cases b with
  | none =>
      refine (spends_around (nodeSpans c.atoms) a fun a s => ?_).of_eq ?_
      · simp [Stmt.atoms]
      · simp
  | some b =>
      refine ((spends_block a).bind (nodeSpans c.atoms + nodeSpans (Stmt.atomsList b))
        fun a => ?_).of_eq ?_
      · refine ((spends_block b).bind (nodeSpans a.atoms + nodeSpans c.atoms)
          fun b => .node fun s => ?_).of_eq ?_
        · simp only [Stmt.atoms, nodeSpans_cons_place, nodeSpans_append]
          abel
        · abel
      · simp only [Option.toList_some, List.flatMap_singleton]
        abel

/-- A loop with its test in front takes spans for itself and its body. -/
theorem spends_whileLoop (c : Expr) (body : List Stmt) :
    Spends (whileLoop c body) (nodeSpans c.atoms + nodeSpans (Stmt.atomsList body))
      fun s => nodeSpans s.atoms :=
  spends_around _ body fun b s => by simp [Stmt.atoms]

/-- A loop with its test behind takes spans for itself and its body. -/
theorem spends_doWhile (body : List Stmt) (c : Expr) :
    Spends (doWhile body c) (nodeSpans c.atoms + nodeSpans (Stmt.atomsList body))
      fun s => nodeSpans s.atoms :=
  spends_around _ body fun b s => by simp [Stmt.atoms, add_comm]

/-- A switch takes spans for itself and its body. -/
theorem spends_switch (e : Expr) (body : List Stmt) :
    Spends (switch e body) (nodeSpans e.atoms + nodeSpans (Stmt.atomsList body))
      fun s => nodeSpans s.atoms :=
  spends_around _ body fun b s => by simp [Stmt.atoms]

/-! ### Functions -/

/-- A function takes spans for itself and its body besides those of its markers and statements. -/
theorem spends_function (s : String) (ms : List Marker) (body : List Stmt) :
    Spends (function s ms body)
      (nodeSpans (ms.flatMap (·.atoms)) + nodeSpans (Stmt.atomsList body))
      fun f => nodeSpans f.atoms := by
  refine .silent (spends_name s) fun n => spends_freshSpan.before fun blockSpan => .node fun _ => ?_
  simp only [Function.atoms, Block.atoms, List.flatMap_nil, nodeSpans_cons_place,
    nodeSpans_cons_function, nodeSpans_append, nodeSpans_type, nodeSpans_nil]
  abel

/-- A kernel takes a span for its marker as well. -/
theorem spends_kernel (s : String) (body : List Stmt) :
    Spends (kernel s body) (nodeSpans (Stmt.atomsList body)) fun f => nodeSpans f.atoms :=
  (spends_marker .kernel).before fun m =>
    (spends_function s [m] body).of_eq (by rw [List.flatMap_singleton])

/-- A parameter takes one span. -/
theorem spends_param (type : CType) (s : String) :
    Spends (param type s) 0 fun p => nodeSpans p.atoms :=
  .silent (spends_name s) fun _ => .node fun _ => by simp [Param.atoms]

/-! ## Calls -/

/-- `Call given act`: what a builder can be asked to do, with the parts that it is given.  A
part of a statement or of a function is given by the part that it was built as. -/
inductive Call : List Part → Build Part → Prop
  | freshSpan : Call [] (.span <$> freshSpan)
  | marker (kind : MarkerKind) : Call [] (.marker <$> marker kind)
  | markerNamed (word : String) : Call [] (.marker <$> markerNamed word)
  -- expressions, by their own methods or from a kind
  | ident (s : String) : Call [] (.expr <$> ident s)
  | int (value : Int) : Call [] (.expr <$> int value)
  | float (bits : UInt64) : Call [] (.expr <$> float bits)
  | char (value : Char) : Call [] (.expr <$> node (Expr.char value))
  | string (text : Name) : Call [] (.expr <$> node (Expr.string text))
  | unary (op : UnaryOp) (e : Expr) : Call [.expr e] (.expr <$> unary op e)
  | binary (op : BinaryOp) (a b : Expr) : Call [.expr a, .expr b] (.expr <$> binary op a b)
  | assign (op : AssignOp) (a b : Expr) : Call [.expr a, .expr b] (.expr <$> assign op a b)
  | call (callee : String) (args : List Expr) :
      Call (args.map .expr) (.expr <$> call callee args)
  | callOf (callee : Expr) (args : List Expr) :
      Call (.expr callee :: args.map .expr) (.expr <$> node (Expr.call callee args))
  | index (a b : Expr) : Call [.expr a, .expr b] (.expr <$> index a b)
  | member (e : Expr) (field : String) (arrow : Bool) :
      Call [.expr e] (.expr <$> member e field arrow)
  | cast (type : CType) (e : Expr) : Call [.expr e] (.expr <$> node (Expr.cast type e))
  | ternary (c a b : Expr) :
      Call [.expr c, .expr a, .expr b] (.expr <$> node (Expr.ternary c a b))
  | comma (parts : List Expr) : Call (parts.map .expr) (.expr <$> comma parts)
  | sizeOfType (type : CType) : Call [] (.expr <$> node (Expr.sizeOfType type))
  | lt (var : String) (bound : Expr) : Call [.expr bound] (.expr <$> lt var bound)
  | preInc (var : String) : Call [] (.expr <$> preInc var)
  -- declarations
  | declarator (s : String) (dims : List Expr) (init : Option Expr) :
      Call (dims.map .expr ++ init.toList.map .expr) (.declarator <$> declarator s dims init)
  | declaration (type : CType) (ds : List Declarator) (ms : List Marker) :
      Call (ds.map .declarator ++ ms.map .marker) (.declaration <$> declaration type ds ms)
  | declStmt (d : Declaration) : Call [.declaration d] (.stmt <$> declStmt d)
  | var (type : CType) (s : String) (init : Option Expr) :
      Call (init.toList.map .expr) (.stmt <$> var type s init)
  | shared (s : String) (dims : List Expr) : Call (dims.map .expr) (.stmt <$> shared s dims)
  | exclusive (s : String) : Call [] (.stmt <$> exclusive s)
  -- statements, with blocks as their parts or with any other
  | exprStmt (e : Expr) : Call [.expr e] (.stmt <$> exprStmt e)
  | block (stmts : List Stmt) : Call (stmts.map .stmt) (.stmt <$> block stmts)
  | blockOf (stmts : List Stmt) (blockSpan : Span) :
      Call (.span blockSpan :: stmts.map .stmt) (.stmt <$> node (Stmt.block stmts blockSpan))
  | ifStmt (c : Expr) (a : List Stmt) (b : Option (List Stmt)) :
      Call (.expr c :: (a.map .stmt ++ b.toList.flatMap (·.map .stmt))) (.stmt <$> ifStmt c a b)
  | ifThen (c : Expr) (a : Stmt) :
      Call [.expr c, .stmt a] (.stmt <$> node (Stmt.ifThen c a))
  | ifElse (c : Expr) (a b : Stmt) :
      Call [.expr c, .stmt a, .stmt b] (.stmt <$> node (Stmt.ifElse c a b))
  | whileLoop (c : Expr) (body : List Stmt) :
      Call (.expr c :: body.map .stmt) (.stmt <$> whileLoop c body)
  | whileOf (c : Expr) (body : Stmt) :
      Call [.expr c, .stmt body] (.stmt <$> node (Stmt.whileLoop c body))
  | doWhile (body : List Stmt) (c : Expr) :
      Call (body.map .stmt ++ [.expr c]) (.stmt <$> doWhile body c)
  | doOf (body : Stmt) (c : Expr) :
      Call [.stmt body, .expr c] (.stmt <$> node (Stmt.doWhile body c))
  | switch (e : Expr) (body : List Stmt) :
      Call (.expr e :: body.map .stmt) (.stmt <$> switch e body)
  | switchOf (e : Expr) (body : Stmt) :
      Call [.expr e, .stmt body] (.stmt <$> node (Stmt.switch e body))
  | caseLabel (value : Option Expr) : Call (value.toList.map .expr) (.stmt <$> caseLabel value)
  | breakJump : Call [] (.stmt <$> breakJump)
  | continueJump : Call [] (.stmt <$> continueJump)
  | returnJump (value : Option Expr) :
      Call (value.toList.map .expr) (.stmt <$> returnJump value)
  | empty : Call [] (.stmt <$> empty)
  -- loops
  | initDecl (d : Declaration) : Call [.declaration d] (pure (.init (.decl d)))
  | initExpr (e : Expr) : Call [.expr e] (pure (.init (.expr e)))
  | induction (var : String) : Call [] (.init <$> induction var)
  | forLoop (init : Option ForInit) (test update : Option Expr) (ms : List Marker)
      (body : List Stmt) :
      Call (init.toList.map .init ++ test.toList.map .expr ++ update.toList.map .expr ++
          ms.map .marker ++ body.map .stmt)
        (.stmt <$> forLoop init test update ms body)
  | forOf (init : Option ForInit) (test update : Option Expr) (ms : List Marker) (body : Stmt) :
      Call (.stmt body :: (init.toList.map .init ++ test.toList.map .expr ++
          update.toList.map .expr ++ ms.map .marker))
        (.stmt <$> do
          let header ← node (LoopHeader.mk init test update ms)
          node (Stmt.forLoop header body))
  | canonicalFor (var : String) (bound : Expr) (ms : List Marker) (body : List Stmt) :
      Call (.expr bound :: (ms.map .marker ++ body.map .stmt))
        (.stmt <$> canonicalFor var bound ms body)
  | outer (var : String) (bound : Int) (body : List Stmt) :
      Call (body.map .stmt) (.stmt <$> outer var bound body)
  | inner (var : String) (bound : Int) (body : List Stmt) :
      Call (body.map .stmt) (.stmt <$> inner var bound body)
  | plainFor (var : String) (bound : Int) (body : List Stmt) :
      Call (body.map .stmt) (.stmt <$> plainFor var bound body)
  -- functions
  | function (s : String) (ms : List Marker) (body : List Stmt) :
      Call (ms.map .marker ++ body.map .stmt) (.function <$> function s ms body)
  | kernel (s : String) (body : List Stmt) :
      Call (body.map .stmt) (.function <$> kernel s body)
  | param (type : CType) (s : String) : Call [] (.param <$> param type s)
  | addParam (f : Function) (p : Param) :
      Call [.function f, .param p] (pure (.function { f with params := f.params ++ [p] }))

/-- The nodes of several expressions, one expression after the other. -/
theorem atomsList_eq_flatMap_expr (es : List Expr) :
    Expr.atomsList es = es.flatMap (·.atoms) := by
  induction es with
  | nil => rfl
  | cons e rest ih => rw [Expr.atomsList, List.flatMap_cons, ih]

/-- The nodes of several statements, one statement after the other. -/
theorem atomsList_eq_flatMap_stmt (ss : List Stmt) :
    Stmt.atomsList ss = ss.flatMap (·.atoms) := by
  induction ss with
  | nil => rfl
  | cons s rest ih => rw [Stmt.atomsList, List.flatMap_cons, ih]

/-- What a builder holds of given parts, once they stand in one part. -/
theorem Spends.part {α : Type} {act : Build α} {given : Multiset Span} {atoms : α → List Atom}
    {make : α → Part} {parts : List Part} (h : Spends act given fun a => nodeSpans (atoms a))
    (hmake : ∀ a, (make a).atoms = atoms a) (hparts : given = nodeSpans (parts.flatMap (·.atoms))) :
    Spends (make <$> act) (nodeSpans (parts.flatMap (·.atoms))) fun p => nodeSpans p.atoms :=
  (h.of_eq hparts).map fun a => congrArg nodeSpans (hmake a)

/-- **One call** spends the parts that it is given. -/
theorem Call.spends {given : List Part} {act : Build Part} (h : Call given act) :
    Spends act (nodeSpans (given.flatMap (·.atoms))) fun p => nodeSpans p.atoms := by
  cases h with
  | freshSpan => exact spends_freshSpan.map fun _ => rfl
  | marker kind => exact (spends_marker kind).part (fun _ => rfl) rfl
  | markerNamed word => exact (spends_markerNamed word).part (fun _ => rfl) rfl
  | ident s => exact (spends_ident s).part (fun _ => rfl) rfl
  | int value => exact (spends_int value).part (fun _ => rfl) rfl
  | float bits => exact Spends.part (.node fun _ => rfl) (fun _ => rfl) rfl
  | char value => exact Spends.part (.node fun _ => rfl) (fun _ => rfl) rfl
  | string text => exact Spends.part (.node fun _ => rfl) (fun _ => rfl) rfl
  | sizeOfType type =>
      refine Spends.part (.node fun _ => ?_) (fun _ => rfl) rfl
      simp [Part.atoms, Expr.atoms]
  | unary op e => exact (spends_unary op e).part (fun _ => rfl) (by simp [Part.atoms])
  | cast type e =>
      refine Spends.part (.node fun _ => ?_) (fun _ => rfl) rfl
      simp [Expr.atoms, Part.atoms]
  | member e field arrow =>
      exact (spends_member e field arrow).part (fun _ => rfl) (by simp [Part.atoms])
  | binary op a b => exact (spends_binary op a b).part (fun _ => rfl) (by simp [Part.atoms])
  | assign op a b | index a b =>
      refine Spends.part (.node fun _ => ?_) (fun _ => rfl) rfl
      simp [Expr.atoms, Part.atoms]
  | ternary c a b =>
      refine Spends.part (.node fun _ => ?_) (fun _ => rfl) rfl
      simp [Expr.atoms, Part.atoms]
  | call callee args =>
      refine (spends_call callee args).part (fun _ => rfl) ?_
      simp [atomsList_eq_flatMap_expr, List.flatMap_map, Part.atoms]
  | callOf f args =>
      refine Spends.part (.node fun _ => ?_) (fun _ => rfl) rfl
      simp [Expr.atoms, atomsList_eq_flatMap_expr, List.flatMap_map, Part.atoms]
  | comma parts =>
      refine Spends.part (.node fun _ => ?_) (fun _ => rfl) rfl
      simp [Expr.atoms, atomsList_eq_flatMap_expr, List.flatMap_map, Part.atoms]
  | lt var bound => exact (spends_lt var bound).part (fun _ => rfl) (by simp [Part.atoms])
  | preInc var => exact (spends_preInc var).part (fun _ => rfl) rfl
  | declarator s dims init =>
      refine (spends_declarator s dims init).part (fun _ => rfl) ?_
      simp [atomsList_eq_flatMap_expr, List.flatMap_map, Part.atoms]
  | declaration type ds ms =>
      refine (spends_declaration type ds ms).part (fun _ => rfl) ?_
      simp [List.flatMap_map, Part.atoms]
  | declStmt d => exact (spends_declStmt d).part (fun _ => rfl) (by simp [Part.atoms])
  | var type s init =>
      refine (spends_var type s init).part (fun _ => rfl) ?_
      simp [List.flatMap_map, Part.atoms]
  | shared s dims =>
      refine (spends_shared s dims).part (fun _ => rfl) ?_
      simp [atomsList_eq_flatMap_expr, List.flatMap_map, Part.atoms]
  | exclusive s => exact (spends_exclusive s).part (fun _ => rfl) rfl
  | exprStmt e =>
      refine Spends.part (.node fun _ => ?_) (fun _ => rfl) rfl
      simp [Part.atoms, Stmt.atoms]
  | block stmts =>
      refine (spends_block stmts).part (fun _ => rfl) ?_
      simp [atomsList_eq_flatMap_stmt, List.flatMap_map, Part.atoms]
  | blockOf stmts blockSpan =>
      refine Spends.part (.node fun _ => ?_) (fun _ => rfl) rfl
      simp [Part.atoms, Stmt.atoms, atomsList_eq_flatMap_stmt, List.flatMap_map]
  | ifStmt c a b =>
      refine (spends_ifStmt c a b).part (fun _ => rfl) ?_
      cases b <;>
        simp [atomsList_eq_flatMap_stmt, List.flatMap_map, Part.atoms, add_assoc]
  | ifThen c a =>
      refine Spends.part (.node fun _ => ?_) (fun _ => rfl) rfl
      simp [Part.atoms, Stmt.atoms]
  | ifElse c a b =>
      refine Spends.part (.node fun _ => ?_) (fun _ => rfl) rfl
      simp [Part.atoms, Stmt.atoms]
  | whileLoop c body =>
      refine (spends_whileLoop c body).part (fun _ => rfl) ?_
      simp [atomsList_eq_flatMap_stmt, List.flatMap_map, Part.atoms]
  | doWhile body c =>
      refine (spends_doWhile body c).part (fun _ => rfl) ?_
      simp [atomsList_eq_flatMap_stmt, List.flatMap_map, Part.atoms, add_comm]
  | switch e body =>
      refine (spends_switch e body).part (fun _ => rfl) ?_
      simp [atomsList_eq_flatMap_stmt, List.flatMap_map, Part.atoms]
  | whileOf c body | doOf body c | switchOf c body =>
      refine Spends.part (.node fun _ => ?_) (fun _ => rfl) rfl
      simp [Part.atoms, Stmt.atoms]
  | caseLabel value | returnJump value =>
      refine Spends.part (.node fun _ => ?_) (fun _ => rfl) rfl
      cases value <;> simp [Part.atoms, Stmt.atoms]
  | breakJump | continueJump | empty => exact Spends.part (.node fun _ => rfl) (fun _ => rfl) rfl
  | initDecl d => exact .pure (by simp [Part.atoms, ForInit.atoms])
  | initExpr e => exact .pure (by simp [Part.atoms, ForInit.atoms])
  | induction var => exact (spends_induction var).part (fun _ => rfl) rfl
  | forLoop init test update ms body =>
      refine (spends_forLoop init test update ms body).part (fun _ => rfl) ?_
      simp [atomsList_eq_flatMap_stmt, List.flatMap_map, Part.atoms, add_assoc]
  | forOf init test update ms body =>
      refine (spends_loop init test update ms body).part (fun _ => rfl) ?_
      simp [List.flatMap_map, Part.atoms, add_assoc]
  | canonicalFor var bound ms body =>
      refine (spends_canonicalFor var bound ms body).part (fun _ => rfl) ?_
      simp [atomsList_eq_flatMap_stmt, List.flatMap_map, Part.atoms, add_assoc]
  | outer var bound body | inner var bound body | plainFor var bound body =>
      refine (spends_markedFor _ var bound body).part (fun _ => rfl) ?_
      simp [atomsList_eq_flatMap_stmt, List.flatMap_map, Part.atoms]
  | function s ms body =>
      refine (spends_function s ms body).part (fun _ => rfl) ?_
      simp [atomsList_eq_flatMap_stmt, List.flatMap_map, Part.atoms]
  | kernel s body =>
      refine (spends_kernel s body).part (fun _ => rfl) ?_
      simp [atomsList_eq_flatMap_stmt, List.flatMap_map, Part.atoms]
  | param type s => exact (spends_param type s).part (fun _ => rfl) rfl
  | addParam f p =>
      refine .pure ?_
      simp only [Part.atoms, Function.atoms, List.flatMap_cons, List.flatMap_nil,
        List.flatMap_append, nodeSpans_cons_place, nodeSpans_cons_function, nodeSpans_append,
        nodeSpans_type, nodeSpans_nil]
      abel

/-- How many spans a builder has handed out. -/
def drawn (b : Builder) : Nat := b.nextOffset / 2

end Builder

/-! ## Workshops -/

/-- The two spans share no byte. -/
def Span.Apart (s t : Span) : Prop := s.stop ≤ t.start ∨ t.stop ≤ s.start

/-- Two spans are apart from each other. -/
theorem Span.Apart.symm {s t : Span} (h : s.Apart t) : t.Apart s := Or.symm h

/-- A builder, and what it has built that stands in nothing else yet. -/
structure Workshop where
  builder : Builder
  stock : List Part

namespace Workshop

/-- The spans of all nodes in stock. -/
def spans (w : Workshop) : List Span := w.stock.flatMap (·.spans)

/-- One call is made, which leaves some parts of the stock where they are. -/
def after (w : Workshop) (act : Build Part) (rest : List Part) : Workshop :=
  ⟨(act.run w.builder).2, (act.run w.builder).1 :: rest⟩

/-- What calls of one builder can lead to.  A part that a call is given is in stock no more.
The table of names is not the builder's own, and others may change it meanwhile. -/
inductive Made : Workshop → Prop
  | start (names : Interner) : Made ⟨.start names, []⟩
  | call {w : Workshop} {given rest : List Part} {act : Build Part} (made : Made w)
      (h : Builder.Call given act) (stocked : w.stock.Perm (given ++ rest)) :
      Made (w.after act rest)
  | names {w : Workshop} (made : Made w) (t : Interner) :
      Made { w with builder := { w.builder with names := t } }

/-- Every span that was handed out is in stock, once. -/
def Accounted (w : Workshop) : Prop :=
  ∃ n, w.builder.nextOffset = 2 * n ∧ (w.spans : Multiset Span) = Builder.slots 0 n

/-- The spans in a workshop are those of the nodes in stock. -/
theorem coe_spans (w : Workshop) :
    (w.spans : Multiset Span) = nodeSpans (w.stock.flatMap (·.atoms)) := by
  have hspans : w.spans = (w.stock.flatMap (·.atoms)).filterMap (·.span?) :=
    (List.filterMap_flatMap ..).symm
  rw [nodeSpans, hspans]

/-- A call keeps the account, since it spends what it takes. -/
theorem Accounted.after {w : Workshop} {given rest : List Part} {act : Build Part}
    (h : w.Accounted) (hcall : Builder.Call given act) (hstock : w.stock.Perm (given ++ rest)) :
    (w.after act rest).Accounted := by
  obtain ⟨n, hoffset, hspans⟩ := h
  obtain ⟨m, hlater, (hheld : nodeSpans (act.run w.builder).1.atoms = _)⟩ :=
    hcall.spends w.builder
  refine ⟨n + m, ?_, ?_⟩
  · calc (w.after act rest).builder.nextOffset
        = w.builder.nextOffset + 2 * m := hlater
      _ = 2 * (n + m) := by omega
  · have htaken : (w.spans : Multiset Span) =
        nodeSpans (given.flatMap (·.atoms)) + nodeSpans (rest.flatMap (·.atoms)) := by
      have hperm := (hstock.flatMap_right (·.atoms)).filterMap (·.span?)
      rw [coe_spans, nodeSpans, Multiset.coe_eq_coe.mpr hperm, List.flatMap_append,
        ← nodeSpans, nodeSpans_append]
    calc ((w.after act rest).spans : Multiset Span)
        = nodeSpans (act.run w.builder).1.atoms + nodeSpans (rest.flatMap (·.atoms)) := by
          rw [coe_spans, Workshop.after, List.flatMap_cons, nodeSpans_append]
      _ = (w.spans : Multiset Span) + Builder.slots w.builder.nextOffset m := by
          rw [hheld, htaken]
          abel
      _ = Builder.slots 0 (n + m) := by
          rw [hspans, hoffset, Builder.slots_add, Nat.zero_add]

/-- Every workshop keeps its account: induction on the calls. -/
theorem Made.accounted {w : Workshop} (h : Made w) : w.Accounted := by
  induction h with
  | start names => exact ⟨0, rfl, rfl⟩
  | call _ hcall hstock ih => exact ih.after hcall hstock
  | names _ t ih => exact ih

/-- The spans in stock are those that were handed out, in some order. -/
theorem Accounted.perm {w : Workshop} (h : w.Accounted) :
    w.spans.Perm ((List.range w.builder.drawn).map fun k => Builder.slot (2 * k)) := by
  obtain ⟨n, hoffset, hspans⟩ := h
  have hdrawn : w.builder.drawn = n := by
    unfold Builder.drawn
    omega
  simp only [Builder.slots, Nat.zero_add] at hspans
  rw [hdrawn]
  exact Multiset.coe_eq_coe.mp hspans

/-- Spans that are handed out are apart. -/
theorem pairwise_slots (n : Nat) :
    ((List.range n).map fun k => Builder.slot (2 * k)).Pairwise Span.Apart := by
  refine List.Pairwise.map _ (fun i j (hij : i < j) => ?_) List.pairwise_lt_range
  left
  change 2 * i + 1 ≤ 2 * j
  omega

end Workshop

/-- **Built spans are unique.**  Whatever calls were made of one builder, in any order and
however nested, if each part was used at most once then the nodes of all parts in stock, be
they whole functions or not yet in one, have spans of one byte each, of which no two are
equal or share a byte, and which end before the next one starts.  Each span that was handed
out is among them, and up to `2 ^ 31` of them all offsets are below the source limit. -/
theorem built_spans {w : Workshop} (made : w.Made) (few : w.builder.drawn < 2 ^ 31) :
    w.spans.length = w.builder.drawn ∧ w.spans.Nodup ∧ w.spans.Pairwise Span.Apart ∧
      (∀ s ∈ w.spans, s.length = 1 ∧ s.stop < (Builder.freshSpan.run w.builder).1.start) ∧
      (Builder.freshSpan.run w.builder).1.stop < Span.limit := by
  have haccounted := made.accounted
  have hperm := haccounted.perm
  have hnext : (Builder.freshSpan.run w.builder).1.start = 2 * w.builder.drawn := by
    obtain ⟨n, hoffset, -⟩ := haccounted
    change w.builder.nextOffset = 2 * (w.builder.nextOffset / 2)
    omega
  have hbytes : ∀ s ∈ w.spans,
      s.length = 1 ∧ s.stop < (Builder.freshSpan.run w.builder).1.start := by
    intro s hs
    obtain ⟨k, hk, rfl⟩ := List.mem_map.mp (hperm.mem_iff.mp hs)
    have hk : k < w.builder.drawn := List.mem_range.mp hk
    refine ⟨Nat.add_sub_cancel_left _ 1, ?_⟩
    rw [hnext]
    change 2 * k + 1 < 2 * w.builder.drawn
    omega
  have hapart : w.spans.Pairwise Span.Apart :=
    (hperm.pairwise_iff Span.Apart.symm).mpr (Workshop.pairwise_slots _)
  refine ⟨?_, ?_, hapart, hbytes, ?_⟩
  · rw [hperm.length_eq, List.length_map, List.length_range]
  · -- A span of one byte is not apart from itself.
    refine hapart.imp_of_mem fun hs _ h => ?_
    rintro rfl
    have hone := (hbytes _ hs).1
    unfold Span.Apart at h
    unfold Span.length at hone
    omega
  · have hlast : (Builder.freshSpan.run w.builder).1.stop = 2 * w.builder.drawn + 1 :=
      congrArg (· + 1) hnext
    unfold Span.limit
    omega

/-- A kernel with one nest, in which a `break` stands, and a bound that is left over. -/
def Workshop.nestSample : Workshop :=
  let jump := Workshop.after ⟨.start .initial, []⟩ (.stmt <$> Builder.breakJump) []
  let inner := jump.after (.stmt <$> Builder.inner "i" 4 [.breakJump ⟨0, 1⟩]) []
  let bound := inner.after (.expr <$> Builder.int 8) inner.stock
  let rest := [(.expr <$> Builder.int 8 : Build Part).run inner.builder |>.1]
  let nest := ((Builder.inner "i" 4 [.breakJump ⟨0, 1⟩]).run jump.builder).1
  let outer := bound.after (.stmt <$> Builder.outer "o" 4 [nest]) rest
  let group := ((Builder.outer "o" 4 [nest]).run bound.builder).1
  outer.after (.function <$> Builder.kernel "k" [group]) rest

/-- The thirty nodes of the kernel are apart, from one another and from the bound. -/
theorem built_spans_nestSample :
    Workshop.nestSample.Made ∧ Workshop.nestSample.builder.drawn = 31 ∧
      Workshop.nestSample.spans.Nodup ∧ Workshop.nestSample.spans.Pairwise Span.Apart := by
  have hdrawn : Workshop.nestSample.builder.drawn = 31 := by rfl
  have hmade : Workshop.nestSample.Made := by
    have hjump := (Workshop.Made.start .initial).call .breakJump (.refl [])
    have hinner := hjump.call (.inner "i" 4 [.breakJump ⟨0, 1⟩]) (.refl _)
    have hbound := hinner.call (.int 8) (.refl _)
    have houter := hbound.call (.outer "o" 4 [_]) (.swap _ _ [])
    exact houter.call (.kernel "k" [_]) (.refl _)
  obtain ⟨-, hnodup, hapart, -⟩ := built_spans hmade (by rw [hdrawn]; decide)
  exact ⟨hmade, hdrawn, hnodup, hapart⟩

end KernelCheck
