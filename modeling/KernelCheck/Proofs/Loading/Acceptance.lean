import KernelCheck.Proofs.Loading.Ensures

/-!
# Which documents load

Whether a document loads depends on its offsets and on its words, and not on the names
that are known already.  What loading asks of them is listed here without loading
anything, and the first entry of the list that is not met is the one that is reported.

* `Document.demands` — what is asked of the nodes of a document, in the order in which
  loading comes to them.
* `Loading.Asks` — a step of loading succeeds if what it asks is met, and fails with the
  first demand that is not.  Its rules follow the ways in which steps are put together.
* `toModule_ok_iff` — all of it for a whole document.
-/

namespace KernelCheck

/-! ## Demands -/

/-- The offsets are in order and below the limit. -/
def Offsets.IsSpan (o : Offsets) : Prop := o.start ≤ o.stop ∧ o.stop < Span.limit

/-- Offsets that give a span are those of one. -/
theorem Offsets.isSpan_of_give {o : Offsets} {s : Span} (h : o.Give s) : o.IsSpan := by
  obtain ⟨hle, hlt, -⟩ := Span.ofOffsets_eq_ok_iff.mp h
  exact ⟨hle, hlt⟩

/-- The text can name something.  The word of a marker may have an `@` in front, but that is
no word yet. -/
def NameRole.Allows (role : NameRole) (s : String) : Prop := s ≠ "" ∧ (role = .marker → s ≠ "@")

instance (o : Offsets) : Decidable o.IsSpan :=
  inferInstanceAs (Decidable (o.start ≤ o.stop ∧ o.stop < Span.limit))

instance (role : NameRole) (s : String) : Decidable (role.Allows s) :=
  inferInstanceAs (Decidable (s ≠ "" ∧ (role = .marker → s ≠ "@")))

/-- What loading asks of a node. -/
inductive Demand where
  /-- The offsets of the node are those of a span. -/
  | span (o : Offsets)
  /-- A text in a node with these offsets names something. -/
  | word (role : NameRole) (s : String) (holder : Offsets)

namespace Demand

/-- The node has what is asked of it. -/
def IsMet : Demand → Prop
  | span o => o.IsSpan
  | word role s _ => role.Allows s

instance : DecidablePred IsMet
  | span o => inferInstanceAs (Decidable o.IsSpan)
  | word role s _ => inferInstanceAs (Decidable (role.Allows s))

/-- The error for a node that has not: what is wrong with its offsets, or which kind of name
is empty, and where the node stands. -/
inductive FailsWith : Demand → LoadError → Prop
  | inverted {o : Offsets} (h : o.stop < o.start) :
      FailsWith (span o) (.badSpan (.inverted o.start o.stop))
  | startPastLimit {o : Offsets} (h : o.start ≤ o.stop) (hstart : Span.limit ≤ o.start) :
      FailsWith (span o) (.badSpan (.pastLimit o.start))
  | stopPastLimit {o : Offsets} (h : o.start ≤ o.stop) (hstart : o.start < Span.limit)
      (hstop : Span.limit ≤ o.stop) : FailsWith (span o) (.badSpan (.pastLimit o.stop))
  | emptyName {role : NameRole} {s : String} {holder : Offsets} (hspan : holder.IsSpan)
      (hword : ¬ role.Allows s) :
      FailsWith (word role s holder) (.emptyName role ⟨holder.start, holder.stop⟩)

/-- What is wrong with offsets that are no span. -/
theorem FailsWith.of_ofOffsets {o : Offsets} {cause : SpanError}
    (h : Span.ofOffsets o.start o.stop = .error cause) : (span o).FailsWith (.badSpan cause) := by
  unfold Span.ofOffsets at h
  split at h
  case isTrue hinverted =>
    cases h
    exact .inverted hinverted
  case isFalse hinverted =>
    have hle : o.start ≤ o.stop := Nat.le_of_not_lt hinverted
    split at h
    case isTrue hstart =>
      cases h
      exact .startPastLimit hle hstart
    case isFalse hstart =>
      split at h
      case isTrue hstop =>
        cases h
        exact .stopPastLimit hle (Nat.lt_of_not_le hstart) hstop
      case isFalse => cases h

/-- A word that is not allowed is reported at the place that its holder's offsets give. -/
theorem FailsWith.of_give {role : NameRole} {s : String} {o : Offsets} {place : Span}
    (h : o.Give place) (hword : ¬ role.Allows s) :
    (word role s o).FailsWith (.emptyName role place) := by
  obtain ⟨hle, hlt, rfl⟩ := Span.ofOffsets_eq_ok_iff.mp h
  exact .emptyName ⟨hle, hlt⟩ hword

/-- A demand that fails is not met. -/
theorem FailsWith.not_isMet {c : Demand} {e : LoadError} (h : c.FailsWith e) : ¬ c.IsMet := by
  cases h with
  | inverted h | startPastLimit h hstart | stopPastLimit h hstart hstop =>
      intro hmet
      obtain ⟨hle, hlt⟩ := hmet
      omega
  | emptyName hspan hword => exact hword

/-- The first demand of a list that is not met fails with this error. -/
def FirstFailsWith (cs : List Demand) (e : LoadError) : Prop :=
  ∃ before c after, cs = before ++ c :: after ∧ (∀ b ∈ before, b.IsMet) ∧ c.FailsWith e

namespace FirstFailsWith

variable {c : Demand} {cs ds : List Demand} {e : LoadError}

/-- The first demand fails. -/
theorem head (h : c.FailsWith e) : FirstFailsWith (c :: cs) e :=
  ⟨[], c, cs, rfl, List.forall_mem_nil _, h⟩

/-- Demands behind the first failing one do not matter. -/
theorem append_right (h : FirstFailsWith cs e) (ds : List Demand) :
    FirstFailsWith (cs ++ ds) e := by
  obtain ⟨before, c, after, rfl, hbefore, hc⟩ := h
  exact ⟨before, c, after ++ ds, by simp, hbefore, hc⟩

/-- Demands in front of the first failing one are met. -/
theorem append_left (hcs : ∀ c ∈ cs, c.IsMet) (h : FirstFailsWith ds e) :
    FirstFailsWith (cs ++ ds) e := by
  obtain ⟨before, c, after, rfl, hbefore, hc⟩ := h
  exact ⟨cs ++ before, c, after, by simp, List.forall_mem_append.mpr ⟨hcs, hbefore⟩, hc⟩

/-- Where a demand fails one is not met. -/
theorem exists_not_isMet (h : FirstFailsWith cs e) : ∃ c ∈ cs, ¬ c.IsMet := by
  obtain ⟨before, c, after, rfl, -, hc⟩ := h
  exact ⟨c, by simp, hc.not_isMet⟩

end FirstFailsWith

end Demand

/-! ## The demands of a document -/

/-- A marker has a place and a word. -/
def MarkerNode.demands (m : MarkerNode) : List Demand :=
  [.span m.offsets, .word .marker m.word m.offsets]

/-- A type has no place of its own.  Its base is a keyword or names a typedef. -/
def TypeNode.demands (holder : Offsets) (c : TypeNode) : List Demand :=
  [.word .type c.base holder]

def ParamNode.demands (p : ParamNode) : List Demand :=
  .span p.offsets :: .word .parameter p.name p.offsets :: p.type.demands p.offsets

mutual

/-- Every expression has a place.  Identifiers and fields are names; a string literal is a text
of any kind. -/
def ExprNode.demands : ExprNode → List Demand
  | .ident name o => [.span o, .word .identifier name o]
  | .int _ o | .float _ o | .char _ o | .string _ o => [.span o]
  | .unary _ a o => .span o :: a.demands
  | .binary _ a b o | .assign _ a b o | .index a b o => .span o :: (a.demands ++ b.demands)
  | .call f args o => .span o :: (f.demands ++ ExprNode.demandsList args)
  | .member a field _ o => .span o :: (a.demands ++ [.word .field field o])
  | .cast type a o => .span o :: (type.demands o ++ a.demands)
  | .ternary c a b o => .span o :: (c.demands ++ (a.demands ++ b.demands))
  | .comma parts o => .span o :: ExprNode.demandsList parts
  | .sizeOfType type o => .span o :: type.demands o

/-- The demands of several expressions. -/
def ExprNode.demandsList : List ExprNode → List Demand
  | [] => []
  | e :: rest => e.demands ++ ExprNode.demandsList rest

end

/-- The demands of an expression that may be missing. -/
def ExprNode.optionDemands (e : Option ExprNode) : List Demand := e.toList.flatMap (·.demands)

def DeclaratorNode.demands (d : DeclaratorNode) : List Demand :=
  .span d.offsets :: .word .declarator d.name d.offsets ::
    (ExprNode.demandsList d.dims ++ ExprNode.optionDemands d.init)

/-- The demands of a declaration that stands where its holder does. -/
def DeclarationNode.demands (holder : Offsets) (d : DeclarationNode) : List Demand :=
  d.declarators.flatMap (·.demands) ++ (d.type.demands holder ++ d.markers.flatMap (·.demands))

/-- A declaration in an init clause has a place of its own. -/
def InitNode.demands : InitNode → List Demand
  | .decl d => .span d.offsets :: d.demands d.offsets
  | .expr e => e.demands

/-- The demands of an init clause that may be missing. -/
def InitNode.optionDemands (init : Option InitNode) : List Demand :=
  init.toList.flatMap (·.demands)

mutual

/-- Every statement has a place, which is also that of the declaration in it. -/
def StmtNode.demands : StmtNode → List Demand
  | .expr e o => .span o :: e.demands
  | .decl d o => .span o :: d.demands o
  | .block stmts o => .span o :: StmtNode.demandsList stmts
  | .ifThen c a o | .whileLoop c a o | .switch c a o => .span o :: (c.demands ++ a.demands)
  | .ifElse c a b o => .span o :: (c.demands ++ (a.demands ++ b.demands))
  | .forLoop init test update body markers o =>
    .span o :: (InitNode.optionDemands init ++ (ExprNode.optionDemands test ++
      (ExprNode.optionDemands update ++ (body.demands ++ markers.flatMap (·.demands)))))
  | .doWhile body c o => .span o :: (body.demands ++ c.demands)
  | .caseLabel value o | .returnJump value o => .span o :: ExprNode.optionDemands value
  | .breakJump o | .continueJump o | .empty o => [.span o]

/-- The demands of several statements. -/
def StmtNode.demandsList : List StmtNode → List Demand
  | [] => []
  | s :: rest => s.demands ++ StmtNode.demandsList rest

end

def BlockNode.demands (b : BlockNode) : List Demand :=
  StmtNode.demandsList b.stmts ++ [.span b.offsets]

/-- The return type and the name of a function stand where the function does. -/
def FunctionNode.demands (f : FunctionNode) : List Demand :=
  .span f.offsets :: (f.params.flatMap (·.demands) ++
    (f.returns.toList.flatMap (·.demands f.offsets) ++ (.word .function f.name f.offsets ::
      (f.body.demands ++ f.markers.flatMap (·.demands)))))

/-- What loading asks of the nodes of a document. -/
def Document.demands (d : Document) : List Demand := d.functions.flatMap (·.demands)

/-! ## Steps of loading -/

namespace Loading

variable {α β δ : Type}

/-- In every table, the step succeeds and all demands are met, or it fails with the first one
that is not. -/
def Asks (cs : List Demand) (m : Loading α) : Prop :=
  ∀ t, ((∃ x u, m.run t = .ok (x, u)) ∧ ∀ c ∈ cs, c.IsMet) ∨
    ∃ e, m.run t = .error e ∧ Demand.FirstFailsWith cs e

namespace Asks

variable {cs ds : List Demand} {o : Offsets}

/-- To go on without doing anything demands nothing. -/
theorem pure (x : α) : Asks [] (pure x) :=
  fun t => .inl ⟨⟨x, t, rfl⟩, List.forall_mem_nil _⟩

/-- Taking a text into the table, or looking at it, asks nothing. -/
theorem modifyGet (f : Interner → α × Interner) : Asks [] (modifyGet f : Loading α) :=
  fun t => .inl ⟨⟨(f t).1, (f t).2, rfl⟩, List.forall_mem_nil _⟩

/-- Two steps demand what the first one does and then what the second one does. -/
theorem bind {m : Loading α} {k : α → Loading β} (h : Asks cs m) (hk : ∀ x, Asks ds (k x)) :
    Asks (cs ++ ds) (m >>= k) := by
  intro t
  have hsteps : (m >>= k).run t = (m.run t >>= fun r => (k r.1).run r.2) := rfl
  rw [hsteps]
  rcases h t with ⟨⟨x, u, hm⟩, hcs⟩ | ⟨e, hm, hfails⟩
  · rw [hm]
    rcases hk x u with ⟨hok, hds⟩ | ⟨e, hrest, hfails⟩
    · exact .inl ⟨hok, List.forall_mem_append.mpr ⟨hcs, hds⟩⟩
    · exact .inr ⟨e, hrest, hfails.append_left hcs⟩
  · rw [hm]
    exact .inr ⟨e, rfl, hfails.append_right ds⟩

/-- Putting a node together asks nothing. -/
theorem last {m : Loading α} (h : Asks cs m) (f : α → β) :
    Asks cs (m >>= fun x => Pure.pure (f x)) := by
  have hbind := h.bind fun x => pure (f x)
  rwa [List.append_nil] at hbind

/-- What becomes of the result makes no difference. -/
theorem map {m : Loading α} (h : Asks cs m) (f : α → β) : Asks cs (f <$> m) := by
  rw [map_eq_pure_bind]
  exact h.last f

/-- A demand that is met may be put in front. -/
theorem cons {c : Demand} {m : Loading α} (hc : c.IsMet) (h : Asks cs m) : Asks (c :: cs) m := by
  have hmet : ∀ c' ∈ [c], c'.IsMet := List.forall_mem_singleton.mpr hc
  intro t
  rcases h t with ⟨hok, hcs⟩ | ⟨e, hm, hfails⟩
  · exact .inl ⟨hok, List.forall_mem_cons.mpr ⟨hc, hcs⟩⟩
  · exact .inr ⟨e, hm, hfails.append_left hmet⟩

/-- A step that fails with its first demand. -/
theorem fails {c : Demand} {m : Loading α} {e : LoadError} (hc : c.FailsWith e)
    (hm : ∀ t, m.run t = .error e) : Asks (c :: cs) m :=
  fun t => .inr ⟨e, hm t, .head hc⟩

/-- The rest may rely on the offsets being those of the span. -/
theorem bindSpan {k : Span → Loading β} (hk : ∀ s, o.Give s → Asks cs (k s)) :
    Asks (.span o :: cs) (o.toSpan >>= k) := by
  unfold Offsets.toSpan
  split
  case h_1 s hs => exact cons (Offsets.isSpan_of_give hs) (hk s hs)
  case h_2 cause hcause => exact fails (Demand.FailsWith.of_ofOffsets hcause) fun t => rfl

/-- A name demands a text that its role allows. -/
theorem name {role : NameRole} (hrole : role ≠ .marker) (s : String) {span : Span}
    (hspan : o.Give span) : Asks [.word role s o] (Loading.name role s span) := by
  have hallows : role.Allows s ↔ s ≠ "" := by simp [NameRole.Allows, hrole]
  unfold Loading.name
  split
  case isTrue hempty =>
    refine fails (.of_give hspan ?_) fun t => rfl
    simpa [hallows] using hempty
  case isFalse hempty => exact cons (hallows.mpr (by simpa using hempty)) (modifyGet _)

/-- Steps for the items of a list, one after the other. -/
theorem mapM {f : δ → Loading α} {demands : δ → List Demand} (h : ∀ d, Asks (demands d) (f d))
    (ds : List δ) : Asks (ds.flatMap demands) (ds.mapM f) := by
  induction ds with
  | nil => exact pure []
  | cons d rest ih =>
      rw [List.mapM_cons, List.flatMap_cons]
      exact (h d).bind fun x => ih.last _

end Asks

end Loading

open Loading

/-! ## The nodes of a document -/

/-- Of a word that is not a mere `@` there is something left without the `@`. -/
theorem MarkerNode.bareWord_ne_empty_iff (m : MarkerNode) :
    m.bareWord ≠ "" ↔ NameRole.marker.Allows m.word := by
  simp only [NameRole.Allows, forall_const]
  unfold bareWord
  split
  case h_1 rest hword =>
      have hempty : m.word ≠ "" := by
        intro h
        simp [h] at hword
      have hrest : m.word = "@" ↔ String.ofList rest = "" := by
        rw [← String.toList_inj, hword]
        simp
      rw [ne_eq, ← hrest]
      exact ⟨fun h => ⟨hempty, h⟩, fun h => h.2⟩
  case h_2 hword =>
      refine ⟨fun h => ⟨h, ?_⟩, fun h => h.1⟩
      intro hat
      exact hword [] (by rw [hat]; rfl)

/-- A marker is loaded if its demands are met, and fails with the first that is not. -/
theorem MarkerNode.asks_toMarker (m : MarkerNode) : Asks m.demands m.toMarker := by
  refine .bindSpan fun span hspan => ?_
  have hbare := m.bareWord_ne_empty_iff
  by_cases hempty : m.bareWord.isEmpty
  · simp only [hempty, if_true]
    refine .fails (.of_give hspan ?_) fun t => rfl
    intro hallows
    exact hbare.mpr hallows (by simpa using hempty)
  · simp only [hempty, if_false, Bool.false_eq_true]
    exact .cons (hbare.mp (by simpa using hempty)) ((Asks.modifyGet _).last _)

/-- The base of a type is no keyword if it is empty. -/
theorem TypeNode.asks_toCType (c : TypeNode) {holder : Offsets} {span : Span}
    (hspan : holder.Give span) : Asks (c.demands holder) (c.toCType span) := by
  unfold toCType
  split
  case h_1 base hkeyword =>
      have hne : c.base ≠ "" := by
        intro hempty
        rw [hempty] at hkeyword
        cases hkeyword
      exact .cons ⟨hne, by simp⟩ (.pure _)
  case h_2 => exact ((Asks.name (by simp) c.base hspan).map _).last _

/-- The return type, which may be missing. -/
theorem TypeNode.asks_returnType (returns : Option TypeNode) {holder : Offsets} {span : Span}
    (hspan : holder.Give span) :
    Asks (returns.toList.flatMap (·.demands holder)) (TypeNode.returnType returns span) := by
  cases returns with
  | none => exact .pure _
  | some type =>
      rw [Option.toList_some, List.flatMap_singleton]
      exact type.asks_toCType hspan

/-- A parameter: its span, its name and its type. -/
theorem ParamNode.asks_toParam (p : ParamNode) : Asks p.demands p.toParam :=
  .bindSpan fun _ hspan => (Asks.name (by simp) p.name hspan).bind fun _ =>
    (p.type.asks_toCType hspan).last _

mutual

/-- An expression, by its own offsets and then by its parts. -/
theorem ExprNode.asks_toExpr : ∀ e : ExprNode, Asks e.demands e.toExpr
  | .ident name _ => .bindSpan fun _ hspan => (Asks.name (by simp) name hspan).last _
  | .int _ _ | .float _ _ | .char _ _ => .bindSpan fun _ _ => .pure _
  | .string _ _ => .bindSpan fun _ _ => (Asks.modifyGet _).last _
  | .unary _ a _ => .bindSpan fun _ _ => (asks_toExpr a).last _
  | .binary _ a b _ | .assign _ a b _ | .index a b _ => .bindSpan fun _ _ =>
      (asks_toExpr a).bind fun _ => (asks_toExpr b).last _
  | .call f args _ => .bindSpan fun _ _ =>
      (asks_toExpr f).bind fun _ => (asks_toExprs args).last _
  | .member a field _ _ => .bindSpan fun _ hspan =>
      (asks_toExpr a).bind fun _ => (Asks.name (by simp) field hspan).last _
  | .cast type a _ => .bindSpan fun _ hspan =>
      (type.asks_toCType hspan).bind fun _ => (asks_toExpr a).last _
  | .ternary c a b _ => .bindSpan fun _ _ =>
      (asks_toExpr c).bind fun _ => (asks_toExpr a).bind fun _ => (asks_toExpr b).last _
  | .comma parts _ => .bindSpan fun _ _ => (asks_toExprs parts).last _
  | .sizeOfType type _ => .bindSpan fun _ hspan => (type.asks_toCType hspan).last _

/-- Several expressions, one after the other. -/
theorem ExprNode.asks_toExprs : ∀ es : List ExprNode,
    Asks (ExprNode.demandsList es) (ExprNode.toExprs es)
  | [] => .pure []
  | e :: rest => (asks_toExpr e).bind fun _ => (asks_toExprs rest).last _

end

/-- An expression that may be missing. -/
theorem ExprNode.asks_toExprOption (e : Option ExprNode) :
    Asks (ExprNode.optionDemands e) (ExprNode.toExprOption e) := by
  cases e with
  | none => exact .pure none
  | some e =>
      rw [optionDemands, Option.toList_some, List.flatMap_singleton]
      exact e.asks_toExpr.last _

/-- A declarator: its span, its name, its dimensions and its initial value. -/
theorem DeclaratorNode.asks_toDeclarator (d : DeclaratorNode) : Asks d.demands d.toDeclarator :=
  .bindSpan fun _ hspan => (Asks.name (by simp) d.name hspan).bind fun _ =>
    (ExprNode.asks_toExprs d.dims).bind fun _ => (ExprNode.asks_toExprOption d.init).last _

/-- A declaration, whose span is that of its holder. -/
theorem DeclarationNode.asks_toDeclaration (d : DeclarationNode) {holder : Offsets} {span : Span}
    (hspan : holder.Give span) : Asks (d.demands holder) (d.toDeclaration span) :=
  (Asks.mapM DeclaratorNode.asks_toDeclarator d.declarators).bind fun _ =>
    (d.type.asks_toCType hspan).bind fun _ =>
    (Asks.mapM MarkerNode.asks_toMarker d.markers).last _

/-- An init clause, a declaration or an expression. -/
theorem InitNode.asks_toInit : ∀ init : InitNode, Asks init.demands init.toInit
  | .decl d => .bindSpan fun _ hspan => (d.asks_toDeclaration hspan).last _
  | .expr e => e.asks_toExpr.last _

/-- An init clause that may be missing. -/
theorem InitNode.asks_toInitOption (init : Option InitNode) :
    Asks (InitNode.optionDemands init) (InitNode.toInitOption init) := by
  cases init with
  | none => exact .pure none
  | some init =>
      rw [optionDemands, Option.toList_some, List.flatMap_singleton]
      exact init.asks_toInit.last _

mutual

/-- A statement, by its own offsets and then by its parts. -/
theorem StmtNode.asks_toStmt : ∀ s : StmtNode, Asks s.demands s.toStmt
  | .expr e _ => .bindSpan fun _ _ => e.asks_toExpr.last _
  | .decl d _ => .bindSpan fun _ hspan => (d.asks_toDeclaration hspan).last _
  | .block stmts _ => .bindSpan fun _ _ => (asks_toStmts stmts).last _
  | .ifThen c a _ | .whileLoop c a _ | .switch c a _ => .bindSpan fun _ _ =>
      c.asks_toExpr.bind fun _ => (asks_toStmt a).last _
  | .ifElse c a b _ => .bindSpan fun _ _ =>
      c.asks_toExpr.bind fun _ => (asks_toStmt a).bind fun _ => (asks_toStmt b).last _
  | .forLoop init test update body markers _ => .bindSpan fun _ _ =>
      (InitNode.asks_toInitOption init).bind fun _ =>
        (ExprNode.asks_toExprOption test).bind fun _ =>
        (ExprNode.asks_toExprOption update).bind fun _ =>
        (asks_toStmt body).bind fun _ => (Asks.mapM MarkerNode.asks_toMarker markers).last _
  | .doWhile body c _ => .bindSpan fun _ _ =>
      (asks_toStmt body).bind fun _ => c.asks_toExpr.last _
  | .caseLabel value _ | .returnJump value _ => .bindSpan fun _ _ =>
      (ExprNode.asks_toExprOption value).last _
  | .breakJump _ | .continueJump _ | .empty _ => .bindSpan fun _ _ => .pure _

/-- Several statements, one after the other. -/
theorem StmtNode.asks_toStmts : ∀ stmts : List StmtNode,
    Asks (StmtNode.demandsList stmts) (StmtNode.toStmts stmts)
  | [] => .pure []
  | s :: rest => (asks_toStmt s).bind fun _ => (asks_toStmts rest).last _

end

/-- A block: its statements, and its span behind them. -/
theorem BlockNode.asks_toBlock (b : BlockNode) : Asks b.demands b.toBlock :=
  (StmtNode.asks_toStmts b.stmts).bind fun _ => .bindSpan fun _ _ => .pure _

/-- A function, with its name behind its parameters and its markers last. -/
theorem FunctionNode.asks_toFunction (f : FunctionNode) : Asks f.demands f.toFunction :=
  .bindSpan fun _ hspan => (Asks.mapM ParamNode.asks_toParam f.params).bind fun _ =>
    (TypeNode.asks_returnType f.returns hspan).bind fun _ =>
    (Asks.name (by simp) f.name hspan).bind fun _ => f.body.asks_toBlock.bind fun _ =>
    (Asks.mapM MarkerNode.asks_toMarker f.markers).last _

/-- **A document** is loaded if its demands are met, and fails with the first that is not. -/
theorem Document.asks_toModule (d : Document) : Asks d.demands d.toModule :=
  (Asks.mapM FunctionNode.asks_toFunction d.functions).last _

/-- **A document loads exactly if all that is asked of it is met**, whatever names are known
already: the offsets of its nodes are in order and below the limit, names and type words are not
empty, and markers have a word.  Otherwise the error is that of the first demand that is not
met, and all demands before it are. -/
theorem toModule_ok_iff (d : Document) (t : Interner) :
    ((∃ m u, d.toModule.run t = .ok (m, u)) ↔ ∀ c ∈ d.demands, c.IsMet) ∧
      ((∃ c ∈ d.demands, ¬ c.IsMet) →
        ∃ e, d.toModule.run t = .error e ∧ Demand.FirstFailsWith d.demands e) := by
  rcases d.asks_toModule t with ⟨hok, hmet⟩ | ⟨e, herror, hfails⟩
  · refine ⟨iff_of_true hok hmet, ?_⟩
    rintro ⟨c, hc, hnot⟩
    exact absurd (hmet c hc) hnot
  · refine ⟨iff_of_false ?_ ?_, fun _ => ⟨e, herror, hfails⟩⟩
    · rintro ⟨m, u, hok⟩
      rw [herror] at hok
      cases hok
    · intro hmet
      obtain ⟨c, hc, hnot⟩ := hfails.exists_not_isMet
      exact hnot (hmet c hc)

/-- A function that returns an empty string literal, cast to a type, at these offsets. -/
def Document.castSample (marker type : String) (cast : Offsets) : Document :=
  let literal : ExprNode := .cast ⟨type, false, true, 1⟩ (.string "" ⟨40, 42⟩) cast
  ⟨[{
    name := "k"
    markers := [⟨marker, ⟨0, 7⟩⟩]
    params := []
    returns := none
    body := ⟨[.returnJump (some literal) ⟨20, 43⟩], ⟨18, 45⟩⟩
    offsets := ⟨8, 45⟩ }]⟩

/-- The sample loads although the literal is empty.  Of an empty type and a marker without a
word, the type comes first, and the error is about the cast that it stands in; if that
ends before it starts, the error is about its offsets. -/
theorem toModule_ok_iff_castSample :
    let wordless := Document.castSample "@" "" ⟨27, 42⟩
    let inverted := Document.castSample "@" "" ⟨42, 27⟩
    (∃ m u, (Document.castSample "@kernel" "text" ⟨27, 42⟩).toModule.run .initial = .ok (m, u)) ∧
      ((∃ c ∈ wordless.demands, ¬ c.IsMet) ∧
        wordless.toModule.run .initial = .error (.emptyName .type ⟨27, 42⟩) ∧
        Demand.FirstFailsWith wordless.demands (.emptyName .type ⟨27, 42⟩)) ∧
      (∃ c ∈ inverted.demands, ¬ c.IsMet) ∧
        inverted.toModule.run .initial = .error (.badSpan (.inverted 42 27)) ∧
        Demand.FirstFailsWith inverted.demands (.badSpan (.inverted 42 27)) := by
  intro wordless inverted
  have hfirst : ∀ (d : Document) (e : LoadError), (∃ c ∈ d.demands, ¬ c.IsMet) →
      d.toModule.run .initial = .error e → Demand.FirstFailsWith d.demands e := by
    intro d e hunmet hrun
    obtain ⟨e', herror, hfails⟩ := (toModule_ok_iff d .initial).2 hunmet
    obtain rfl : e' = e := Except.error.inj (herror.symm.trans hrun)
    exact hfails
  have hwordless : ∃ c ∈ wordless.demands, ¬ c.IsMet := by decide
  have hinverted : ∃ c ∈ inverted.demands, ¬ c.IsMet := by decide
  refine ⟨(toModule_ok_iff _ .initial).1.mpr (by decide), ?_, ?_⟩
  · exact ⟨hwordless, rfl, hfirst wordless _ hwordless rfl⟩
  · exact ⟨hinverted, rfl, hfirst inverted _ hinverted rfl⟩

end KernelCheck
