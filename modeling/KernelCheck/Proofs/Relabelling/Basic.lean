import KernelCheck.Verdict

/-!
# Other places and other names

A relabelling changes the places and names of a kernel and nothing else.  The
*atoms* of a node are the places and names in it, from left to right; they are
all of a node that a relabelling sees.

* `Function.relabel_congr` — relabellings that agree on the atoms of a kernel do
  the same to it.
* `Function.atoms_relabel` — the atoms of a relabelled kernel are the relabelled
  atoms.

Names of variables, names of functions and all other names are changed apart
from each other.  Those others stand for their texts: names of types, fields and
markers, and string literals.  A statement that holds a declaration, a block or a
`for` loop has a place besides that of what it holds.  No rule looks at that
place, so it is an atom of a kind of its own.
-/

namespace KernelCheck

/-- A change of places and names. -/
structure Relabelling where
  place : Span → Span
  /-- Of the place of a statement around a declaration, a block or a loop. -/
  wrapper : Span → Span
  var : Name → Name
  function : Name → Name
  /-- Of a name that stands for its text. -/
  word : Name → Name

/-- A place or a name in a kernel. -/
inductive Atom where
  | place (span : Span)
  | wrapper (span : Span)
  | function (name : Name)
  | var (name : Name)
  | word (name : Name)
  deriving DecidableEq

namespace Relabelling

protected def id : Relabelling := ⟨id, id, id, id, id⟩

def atom (ρ : Relabelling) : Atom → Atom
  | .place s => .place (ρ.place s)
  | .wrapper s => .wrapper (ρ.wrapper s)
  | .function n => .function (ρ.function n)
  | .var n => .var (ρ.var n)
  | .word n => .word (ρ.word n)

/-- To relabel nothing changes no atom. -/
@[simp] theorem atom_id (a : Atom) : Relabelling.id.atom a = a := by cases a <;> rfl

/-- Two relabellings do the same to some atoms. -/
def AgreesOn (ρ σ : Relabelling) (as : List Atom) : Prop := ∀ a ∈ as, ρ.atom a = σ.atom a

section AgreesOn

variable {ρ σ : Relabelling} {as bs : List Atom}

/-- Two relabellings agree on two lists together if they agree on each. -/
@[simp] theorem agreesOn_append :
    ρ.AgreesOn σ (as ++ bs) ↔ ρ.AgreesOn σ as ∧ ρ.AgreesOn σ bs :=
  List.forall_mem_append

@[simp] theorem agreesOn_cons_place {s : Span} :
    ρ.AgreesOn σ (.place s :: as) ↔ ρ.place s = σ.place s ∧ ρ.AgreesOn σ as := by
  simp [AgreesOn, atom]

@[simp] theorem agreesOn_cons_wrapper {s : Span} :
    ρ.AgreesOn σ (.wrapper s :: as) ↔ ρ.wrapper s = σ.wrapper s ∧ ρ.AgreesOn σ as := by
  simp [AgreesOn, atom]

@[simp] theorem agreesOn_cons_function {n : Name} :
    ρ.AgreesOn σ (.function n :: as) ↔ ρ.function n = σ.function n ∧ ρ.AgreesOn σ as := by
  simp [AgreesOn, atom]

@[simp] theorem agreesOn_cons_var {n : Name} :
    ρ.AgreesOn σ (.var n :: as) ↔ ρ.var n = σ.var n ∧ ρ.AgreesOn σ as := by
  simp [AgreesOn, atom]

@[simp] theorem agreesOn_cons_word {n : Name} :
    ρ.AgreesOn σ (.word n :: as) ↔ ρ.word n = σ.word n ∧ ρ.AgreesOn σ as := by
  simp [AgreesOn, atom]

/-- What agrees on many parts agrees on each of them. -/
theorem AgreesOn.of_mem_flatMap {α : Type} {xs : List α} {f : α → List Atom}
    (h : ρ.AgreesOn σ (xs.flatMap f)) {x : α} (hx : x ∈ xs) : ρ.AgreesOn σ (f x) :=
  fun a ha => h a (List.mem_flatMap.mpr ⟨x, hx, ha⟩)

end AgreesOn

end Relabelling

/-! ## Types and markers -/

def BaseType.relabel (ρ : Relabelling) : BaseType → BaseType
  | .named n => .named (ρ.word n)
  | base => base

def BaseType.atoms : BaseType → List Atom
  | .named n => [.word n]
  | _ => []

def CType.relabel (ρ : Relabelling) (c : CType) : CType := { c with base := c.base.relabel ρ }

def CType.atoms (c : CType) : List Atom := c.base.atoms

def MarkerKind.relabel (ρ : Relabelling) : MarkerKind → MarkerKind
  | .custom n => .custom (ρ.word n)
  | kind => kind

def MarkerKind.atoms : MarkerKind → List Atom
  | .custom n => [.word n]
  | _ => []

def Marker.relabel (ρ : Relabelling) (m : Marker) : Marker := ⟨m.kind.relabel ρ, ρ.place m.span⟩

def Marker.atoms (m : Marker) : List Atom := .place m.span :: m.kind.atoms

/-! ## Expressions -/

mutual

def Expr.relabel (ρ : Relabelling) : Expr → Expr
  | .ident n s => .ident (ρ.var n) (ρ.place s)
  | .int value s => .int value (ρ.place s)
  | .float bits s => .float bits (ρ.place s)
  | .char value s => .char value (ρ.place s)
  | .string text s => .string (ρ.word text) (ρ.place s)
  | .unary op e s => .unary op (e.relabel ρ) (ρ.place s)
  | .binary op a b s => .binary op (a.relabel ρ) (b.relabel ρ) (ρ.place s)
  | .assign op a b s => .assign op (a.relabel ρ) (b.relabel ρ) (ρ.place s)
  | .call f args s => .call (f.relabel ρ) (Expr.relabelList ρ args) (ρ.place s)
  | .index a b s => .index (a.relabel ρ) (b.relabel ρ) (ρ.place s)
  | .member e field arrow s => .member (e.relabel ρ) (ρ.word field) arrow (ρ.place s)
  | .cast type e s => .cast (type.relabel ρ) (e.relabel ρ) (ρ.place s)
  | .ternary c a b s => .ternary (c.relabel ρ) (a.relabel ρ) (b.relabel ρ) (ρ.place s)
  | .comma parts s => .comma (Expr.relabelList ρ parts) (ρ.place s)
  | .sizeOfType type s => .sizeOfType (type.relabel ρ) (ρ.place s)

def Expr.relabelList (ρ : Relabelling) : List Expr → List Expr
  | [] => []
  | e :: rest => e.relabel ρ :: Expr.relabelList ρ rest

end

mutual

def Expr.atoms : Expr → List Atom
  | .ident n s => [.place s, .var n]
  | .int _ s | .float _ s | .char _ s => [.place s]
  | .string text s => [.place s, .word text]
  | .unary _ e s => .place s :: e.atoms
  | .binary _ a b s | .assign _ a b s | .index a b s => .place s :: (a.atoms ++ b.atoms)
  | .call f args s => .place s :: (f.atoms ++ Expr.atomsList args)
  | .member e field _ s => .place s :: .word field :: e.atoms
  | .cast type e s => .place s :: (type.atoms ++ e.atoms)
  | .ternary c a b s => .place s :: (c.atoms ++ (a.atoms ++ b.atoms))
  | .comma parts s => .place s :: Expr.atomsList parts
  | .sizeOfType type s => .place s :: type.atoms

def Expr.atomsList : List Expr → List Atom
  | [] => []
  | e :: rest => e.atoms ++ Expr.atomsList rest

end

/-! ## Statements -/

def Declarator.relabel (ρ : Relabelling) (d : Declarator) : Declarator :=
  ⟨ρ.var d.name, Expr.relabelList ρ d.dims, d.init.map (·.relabel ρ), ρ.place d.span⟩

def Declarator.atoms (d : Declarator) : List Atom :=
  .place d.span :: .var d.name :: (Expr.atomsList d.dims ++ d.init.toList.flatMap (·.atoms))

def Declaration.relabel (ρ : Relabelling) (d : Declaration) : Declaration :=
  ⟨d.type.relabel ρ, d.declarators.map (·.relabel ρ), d.markers.map (·.relabel ρ), ρ.place d.span⟩

def Declaration.atoms (d : Declaration) : List Atom :=
  .place d.span ::
    (d.markers.flatMap (·.atoms) ++ (d.type.atoms ++ d.declarators.flatMap (·.atoms)))

def ForInit.relabel (ρ : Relabelling) : ForInit → ForInit
  | .decl d => .decl (d.relabel ρ)
  | .expr e => .expr (e.relabel ρ)

def ForInit.atoms : ForInit → List Atom
  | .decl d => d.atoms
  | .expr e => e.atoms

def LoopHeader.relabel (ρ : Relabelling) (h : LoopHeader) : LoopHeader :=
  ⟨h.init.map (·.relabel ρ), h.test.map (·.relabel ρ), h.update.map (·.relabel ρ),
    h.markers.map (·.relabel ρ), ρ.place h.span⟩

def LoopHeader.atoms (h : LoopHeader) : List Atom :=
  .place h.span ::
    (h.markers.flatMap (·.atoms) ++ (h.init.toList.flatMap (·.atoms) ++
      (h.test.toList.flatMap (·.atoms) ++ h.update.toList.flatMap (·.atoms))))

mutual

def Stmt.relabel (ρ : Relabelling) : Stmt → Stmt
  | .expr e s => .expr (e.relabel ρ) (ρ.place s)
  | .decl d s => .decl (d.relabel ρ) (ρ.wrapper s)
  | .block stmts blockSpan s => .block (Stmt.relabelList ρ stmts) (ρ.place blockSpan) (ρ.wrapper s)
  | .ifThen c a s => .ifThen (c.relabel ρ) (a.relabel ρ) (ρ.place s)
  | .ifElse c a b s => .ifElse (c.relabel ρ) (a.relabel ρ) (b.relabel ρ) (ρ.place s)
  | .forLoop header body s => .forLoop (header.relabel ρ) (body.relabel ρ) (ρ.wrapper s)
  | .whileLoop c body s => .whileLoop (c.relabel ρ) (body.relabel ρ) (ρ.place s)
  | .doWhile body c s => .doWhile (body.relabel ρ) (c.relabel ρ) (ρ.place s)
  | .switch e body s => .switch (e.relabel ρ) (body.relabel ρ) (ρ.place s)
  | .caseLabel value s => .caseLabel (value.map (·.relabel ρ)) (ρ.place s)
  | .breakJump s => .breakJump (ρ.place s)
  | .continueJump s => .continueJump (ρ.place s)
  | .returnJump value s => .returnJump (value.map (·.relabel ρ)) (ρ.place s)
  | .empty s => .empty (ρ.place s)

def Stmt.relabelList (ρ : Relabelling) : List Stmt → List Stmt
  | [] => []
  | s :: rest => s.relabel ρ :: Stmt.relabelList ρ rest

end

mutual

def Stmt.atoms : Stmt → List Atom
  | .expr e s => .place s :: e.atoms
  | .decl d s => .wrapper s :: d.atoms
  | .block stmts blockSpan s => .wrapper s :: .place blockSpan :: Stmt.atomsList stmts
  | .ifThen c a s => .place s :: (c.atoms ++ a.atoms)
  | .ifElse c a b s => .place s :: (c.atoms ++ (a.atoms ++ b.atoms))
  | .forLoop header body s => .wrapper s :: (header.atoms ++ body.atoms)
  | .whileLoop c body s => .place s :: (c.atoms ++ body.atoms)
  | .doWhile body c s => .place s :: (body.atoms ++ c.atoms)
  | .switch e body s => .place s :: (e.atoms ++ body.atoms)
  | .caseLabel value s | .returnJump value s => .place s :: value.toList.flatMap (·.atoms)
  | .breakJump s | .continueJump s | .empty s => [.place s]

def Stmt.atomsList : List Stmt → List Atom
  | [] => []
  | s :: rest => s.atoms ++ Stmt.atomsList rest

end

/-! ## Kernels and modules -/

def Block.relabel (ρ : Relabelling) (b : Block) : Block :=
  ⟨Stmt.relabelList ρ b.stmts, ρ.place b.span⟩

def Block.atoms (b : Block) : List Atom := .place b.span :: Stmt.atomsList b.stmts

def Param.relabel (ρ : Relabelling) (p : Param) : Param :=
  ⟨ρ.var p.name, p.type.relabel ρ, ρ.place p.span⟩

def Param.atoms (p : Param) : List Atom := .place p.span :: .var p.name :: p.type.atoms

def Function.relabel (ρ : Relabelling) (f : Function) : Function :=
  ⟨ρ.function f.name, f.params.map (·.relabel ρ), f.returns.relabel ρ, f.body.relabel ρ,
    f.markers.map (·.relabel ρ), ρ.place f.span⟩

def Function.atoms (f : Function) : List Atom :=
  .place f.span :: .function f.name ::
    (f.markers.flatMap (·.atoms) ++ (f.params.flatMap (·.atoms) ++
      (f.returns.atoms ++ f.body.atoms)))

def Module.relabel (ρ : Relabelling) (m : Module) : Module := ⟨m.functions.map (·.relabel ρ)⟩

/-! ## Problems and verdicts -/

def Problem.relabel (ρ : Relabelling) : Problem → Problem
  | .unknownAttribute s kind target => .unknownAttribute (ρ.place s) (kind.relabel ρ) target
  | .duplicateAttribute s kind first =>
    .duplicateAttribute (ρ.place s) (kind.relabel ρ) (ρ.place first)
  | .badInduction s loop issue => .badInduction (ρ.place s) (ρ.place loop) issue
  | .badTest s var issue => .badTest (ρ.place s) (ρ.var var) issue
  | .badUpdate s var issue => .badUpdate (ρ.place s) (ρ.var var) issue
  | .outerBelowInner s inner => .outerBelowInner (ρ.place s) (ρ.place inner)
  | .missingLoops s kernel missing => .missingLoops (ρ.place s) (ρ.function kernel) missing
  | .unevenDepth s depth expected first => .unevenDepth (ρ.place s) depth expected (ρ.place first)
  | .innerOutsideOuter s => .innerOutsideOuter (ρ.place s)
  | .sharedOutsideOuter s n => .sharedOutsideOuter (ρ.place s) (ρ.var n)
  | .sharedInsideInner s n inner => .sharedInsideInner (ρ.place s) (ρ.var n) (ρ.place inner)
  | .exclusiveOutsideOuter s n => .exclusiveOutsideOuter (ρ.place s) (ρ.var n)
  | .exclusiveInsideInner s n inner => .exclusiveInsideInner (ρ.place s) (ρ.var n) (ρ.place inner)
  | .variantBound s array var varSpan =>
    .variantBound (ρ.place s) (ρ.var array) (ρ.var var) (ρ.place varSpan)
  | .illegalBreak s loop role => .illegalBreak (ρ.place s) (ρ.place loop) role
  | .illegalContinue s loop role => .illegalContinue (ρ.place s) (ρ.place loop) role

def Problem.atoms : Problem → List Atom
  | .unknownAttribute s kind _ => .place s :: kind.atoms
  | .duplicateAttribute s kind first => .place s :: .place first :: kind.atoms
  | .badInduction s other _ | .outerBelowInner s other | .unevenDepth s _ _ other
  | .illegalBreak s other _ | .illegalContinue s other _ => [.place s, .place other]
  | .badTest s var _ | .badUpdate s var _ | .sharedOutsideOuter s var
  | .exclusiveOutsideOuter s var => [.place s, .var var]
  | .missingLoops s kernel _ => [.place s, .function kernel]
  | .innerOutsideOuter s => [.place s]
  | .sharedInsideInner s n inner | .exclusiveInsideInner s n inner =>
    [.place s, .var n, .place inner]
  | .variantBound s array var varSpan => [.place s, .var array, .var var, .place varSpan]

def Verdict.relabel (ρ : Relabelling) (v : Verdict) : Verdict :=
  ⟨ρ.function v.kernel, ρ.place v.span, v.problems.map (·.relabel ρ)⟩

def Verdict.atoms (v : Verdict) : List Atom :=
  .place v.span :: .function v.kernel :: v.problems.flatMap (·.atoms)

def Report.relabel (ρ : Relabelling) (r : Report) : Report := ⟨r.verdicts.map (·.relabel ρ)⟩

/-! ## Relabellings that agree on the atoms -/

variable {ρ σ : Relabelling}

/-- A type is relabelled by what happens to its atoms. -/
theorem CType.relabel_congr {c : CType} (h : ρ.AgreesOn σ c.atoms) :
    c.relabel ρ = c.relabel σ := by
  obtain ⟨base, u, k, p⟩ := c
  cases base <;> simp_all [relabel, atoms, BaseType.relabel, BaseType.atoms]

/-- The kind of a marker is relabelled by what happens to its atoms. -/
theorem MarkerKind.relabel_congr {kind : MarkerKind} (h : ρ.AgreesOn σ kind.atoms) :
    kind.relabel ρ = kind.relabel σ := by
  cases kind <;> simp_all [relabel, atoms]

/-- A marker is relabelled by what happens to its atoms. -/
theorem Marker.relabel_congr {m : Marker} (h : ρ.AgreesOn σ m.atoms) :
    m.relabel ρ = m.relabel σ := by
  rw [atoms, Relabelling.agreesOn_cons_place] at h
  rw [relabel, relabel, h.1, MarkerKind.relabel_congr h.2]

mutual

/-- An expression is relabelled by what happens to its atoms. -/
theorem Expr.relabel_congr : ∀ (e : Expr), ρ.AgreesOn σ e.atoms → e.relabel ρ = e.relabel σ
  | .ident .., h | .int .., h | .float .., h | .char .., h | .string .., h => by
      simp_all [relabel, atoms]
  | .unary _ e _, h => by
      rw [atoms, Relabelling.agreesOn_cons_place] at h
      rw [relabel, relabel, h.1, relabel_congr e h.2]
  | .member e _ _ _, h => by
      simp only [atoms, Relabelling.agreesOn_cons_place, Relabelling.agreesOn_cons_word] at h
      obtain ⟨hspan, hfield, he⟩ := h
      rw [relabel, relabel, hspan, hfield, relabel_congr e he]
  | .binary _ a b _, h | .assign _ a b _, h | .index a b _, h => by
      rw [atoms, Relabelling.agreesOn_cons_place, Relabelling.agreesOn_append] at h
      obtain ⟨hspan, ha, hb⟩ := h
      rw [relabel, relabel, hspan, relabel_congr a ha, relabel_congr b hb]
  | .call f args _, h => by
      rw [atoms, Relabelling.agreesOn_cons_place, Relabelling.agreesOn_append] at h
      obtain ⟨hspan, hf, hargs⟩ := h
      rw [relabel, relabel, hspan, relabel_congr f hf, relabelList_congr args hargs]
  | .cast type e _, h => by
      rw [atoms, Relabelling.agreesOn_cons_place, Relabelling.agreesOn_append] at h
      obtain ⟨hspan, htype, he⟩ := h
      rw [relabel, relabel, hspan, CType.relabel_congr htype, relabel_congr e he]
  | .ternary c a b _, h => by
      simp only [atoms, Relabelling.agreesOn_cons_place, Relabelling.agreesOn_append] at h
      obtain ⟨hspan, hc, ha, hb⟩ := h
      rw [relabel, relabel, hspan, relabel_congr c hc, relabel_congr a ha, relabel_congr b hb]
  | .comma parts _, h => by
      rw [atoms, Relabelling.agreesOn_cons_place] at h
      rw [relabel, relabel, h.1, relabelList_congr parts h.2]
  | .sizeOfType type _, h => by
      rw [atoms, Relabelling.agreesOn_cons_place] at h
      rw [relabel, relabel, h.1, CType.relabel_congr h.2]

theorem Expr.relabelList_congr : ∀ (es : List Expr), ρ.AgreesOn σ (atomsList es) →
    relabelList ρ es = relabelList σ es
  | [], _ => rfl
  | e :: rest, h => by
      rw [atomsList, Relabelling.agreesOn_append] at h
      rw [relabelList, relabelList, relabel_congr e h.1, relabelList_congr rest h.2]

end

/-- Relabellings that do the same to each of several things do the same to all of them. -/
theorem Relabelling.map_congr {α β : Type} {f : α → List Atom} {g k : α → β} {xs : List α}
    (h : ρ.AgreesOn σ (xs.flatMap f)) (heq : ∀ x, ρ.AgreesOn σ (f x) → g x = k x) :
    xs.map g = xs.map k :=
  List.map_congr_left fun x hx => heq x (h.of_mem_flatMap hx)

/-- So is a part that may be missing. -/
theorem Relabelling.optionMap_congr {α β : Type} {f : α → List Atom} {g k : α → β} {x : Option α}
    (h : ρ.AgreesOn σ (x.toList.flatMap f)) (heq : ∀ x, ρ.AgreesOn σ (f x) → g x = k x) :
    x.map g = x.map k := by
  cases x with
  | none => rfl
  | some x => exact congrArg some (heq x (h.of_mem_flatMap List.mem_cons_self))

/-- A declarator is relabelled by what happens to its atoms. -/
theorem Declarator.relabel_congr {d : Declarator} (h : ρ.AgreesOn σ d.atoms) :
    d.relabel ρ = d.relabel σ := by
  simp only [atoms, Relabelling.agreesOn_cons_place, Relabelling.agreesOn_cons_var,
    Relabelling.agreesOn_append] at h
  obtain ⟨hspan, hname, hdims, hinit⟩ := h
  rw [relabel, relabel, hspan, hname, Expr.relabelList_congr _ hdims,
    Relabelling.optionMap_congr hinit Expr.relabel_congr]

/-- A declaration is relabelled by what happens to its atoms. -/
theorem Declaration.relabel_congr {d : Declaration} (h : ρ.AgreesOn σ d.atoms) :
    d.relabel ρ = d.relabel σ := by
  simp only [atoms, Relabelling.agreesOn_cons_place, Relabelling.agreesOn_append] at h
  obtain ⟨hspan, hmarkers, htype, hdeclarators⟩ := h
  rw [relabel, relabel, hspan, CType.relabel_congr htype,
    Relabelling.map_congr hmarkers fun _ => Marker.relabel_congr,
    Relabelling.map_congr hdeclarators fun _ => Declarator.relabel_congr]

/-- An init clause is relabelled by what happens to its atoms. -/
theorem ForInit.relabel_congr (init : ForInit) (h : ρ.AgreesOn σ init.atoms) :
    init.relabel ρ = init.relabel σ := by
  cases init with
  | decl d => exact congrArg decl (Declaration.relabel_congr h)
  | expr e => exact congrArg expr (Expr.relabel_congr e h)

/-- A loop header is relabelled by what happens to its atoms. -/
theorem LoopHeader.relabel_congr {header : LoopHeader} (h : ρ.AgreesOn σ header.atoms) :
    header.relabel ρ = header.relabel σ := by
  simp only [atoms, Relabelling.agreesOn_cons_place, Relabelling.agreesOn_append] at h
  obtain ⟨hspan, hmarkers, hinit, htest, hupdate⟩ := h
  rw [relabel, relabel, hspan, Relabelling.map_congr hmarkers fun _ => Marker.relabel_congr,
    Relabelling.optionMap_congr hinit ForInit.relabel_congr,
    Relabelling.optionMap_congr htest Expr.relabel_congr,
    Relabelling.optionMap_congr hupdate Expr.relabel_congr]

mutual

/-- A statement is relabelled by what happens to its atoms. -/
theorem Stmt.relabel_congr : ∀ (s : Stmt), ρ.AgreesOn σ s.atoms → s.relabel ρ = s.relabel σ
  | .expr e _, h => by
      rw [atoms, Relabelling.agreesOn_cons_place] at h
      rw [relabel, relabel, h.1, Expr.relabel_congr e h.2]
  | .decl d _, h => by
      rw [atoms, Relabelling.agreesOn_cons_wrapper] at h
      rw [relabel, relabel, h.1, Declaration.relabel_congr h.2]
  | .block stmts _ _, h => by
      rw [atoms, Relabelling.agreesOn_cons_wrapper, Relabelling.agreesOn_cons_place] at h
      obtain ⟨hspan, hblock, hstmts⟩ := h
      rw [relabel, relabel, hspan, hblock, relabelList_congr stmts hstmts]
  | .ifThen c a _, h | .whileLoop c a _, h | .switch c a _, h => by
      rw [atoms, Relabelling.agreesOn_cons_place, Relabelling.agreesOn_append] at h
      obtain ⟨hspan, hc, ha⟩ := h
      rw [relabel, relabel, hspan, Expr.relabel_congr c hc, relabel_congr a ha]
  | .doWhile a c _, h => by
      rw [atoms, Relabelling.agreesOn_cons_place, Relabelling.agreesOn_append] at h
      obtain ⟨hspan, ha, hc⟩ := h
      rw [relabel, relabel, hspan, relabel_congr a ha, Expr.relabel_congr c hc]
  | .ifElse c a b _, h => by
      simp only [atoms, Relabelling.agreesOn_cons_place, Relabelling.agreesOn_append] at h
      obtain ⟨hspan, hc, ha, hb⟩ := h
      rw [relabel, relabel, hspan, Expr.relabel_congr c hc, relabel_congr a ha, relabel_congr b hb]
  | .forLoop header body _, h => by
      rw [atoms, Relabelling.agreesOn_cons_wrapper, Relabelling.agreesOn_append] at h
      obtain ⟨hspan, hheader, hbody⟩ := h
      rw [relabel, relabel, hspan, LoopHeader.relabel_congr hheader, relabel_congr body hbody]
  | .caseLabel value _, h | .returnJump value _, h => by
      rw [atoms, Relabelling.agreesOn_cons_place] at h
      rw [relabel, relabel, h.1, Relabelling.optionMap_congr h.2 Expr.relabel_congr]
  | .breakJump _, h | .continueJump _, h | .empty _, h => by
      simp_all [relabel, atoms]

theorem Stmt.relabelList_congr : ∀ (stmts : List Stmt), ρ.AgreesOn σ (atomsList stmts) →
    relabelList ρ stmts = relabelList σ stmts
  | [], _ => rfl
  | s :: rest, h => by
      rw [atomsList, Relabelling.agreesOn_append] at h
      rw [relabelList, relabelList, relabel_congr s h.1, relabelList_congr rest h.2]

end

/-- A parameter is relabelled by what happens to its atoms. -/
theorem Param.relabel_congr {p : Param} (h : ρ.AgreesOn σ p.atoms) :
    p.relabel ρ = p.relabel σ := by
  simp only [atoms, Relabelling.agreesOn_cons_place, Relabelling.agreesOn_cons_var] at h
  obtain ⟨hspan, hname, htype⟩ := h
  rw [relabel, relabel, hspan, hname, CType.relabel_congr htype]

/-- **Only the atoms count.**  Relabellings that do the same to the places and
names of a function do the same to the function. -/
theorem Function.relabel_congr {f : Function} (h : ρ.AgreesOn σ f.atoms) :
    f.relabel ρ = f.relabel σ := by
  simp only [atoms, Block.atoms, Relabelling.agreesOn_cons_place,
    Relabelling.agreesOn_cons_function, Relabelling.agreesOn_append] at h
  obtain ⟨hspan, hname, hmarkers, hparams, hreturns, hblock, hstmts⟩ := h
  rw [relabel, relabel, Block.relabel, Block.relabel, hspan, hname, hblock,
    CType.relabel_congr hreturns, Stmt.relabelList_congr _ hstmts,
    Relabelling.map_congr hmarkers fun _ => Marker.relabel_congr,
    Relabelling.map_congr hparams fun _ => Param.relabel_congr]

/-- A problem is relabelled by what happens to its atoms. -/
theorem Problem.relabel_congr {p : Problem} (h : ρ.AgreesOn σ p.atoms) :
    p.relabel ρ = p.relabel σ := by
  cases p with
  | unknownAttribute _ kind _ =>
      rw [atoms, Relabelling.agreesOn_cons_place] at h
      rw [relabel, relabel, h.1, MarkerKind.relabel_congr h.2]
  | duplicateAttribute _ kind _ =>
      rw [atoms, Relabelling.agreesOn_cons_place, Relabelling.agreesOn_cons_place] at h
      obtain ⟨hspan, hfirst, hkind⟩ := h
      rw [relabel, relabel, hspan, hfirst, MarkerKind.relabel_congr hkind]
  | _ => simp_all [relabel, atoms]

/-- **A verdict** is relabelled by what happens to its atoms. -/
theorem Verdict.relabel_congr {v : Verdict} (h : ρ.AgreesOn σ v.atoms) :
    v.relabel ρ = v.relabel σ := by
  simp only [atoms, Relabelling.agreesOn_cons_place, Relabelling.agreesOn_cons_function] at h
  obtain ⟨hspan, hkernel, hproblems⟩ := h
  rw [relabel, relabel, hspan, hkernel,
    Relabelling.map_congr hproblems fun _ => Problem.relabel_congr]

/-! ## Atoms of what is relabelled -/

/-- The atoms of many relabelled parts are the relabelled atoms. -/
theorem Relabelling.flatMap_map_atoms {α : Type} {f : α → List Atom} {g : α → α} (xs : List α)
    (h : ∀ x, f (g x) = (f x).map ρ.atom) :
    (xs.map g).flatMap f = (xs.flatMap f).map ρ.atom := by
  simp only [List.flatMap_map, List.map_flatMap, h]

/-- The same for a part that may be missing. -/
theorem Relabelling.flatMap_optionMap_atoms {α : Type} {f : α → List Atom} {g : α → α}
    (x : Option α) (h : ∀ x, f (g x) = (f x).map ρ.atom) :
    (x.map g).toList.flatMap f = (x.toList.flatMap f).map ρ.atom := by
  rw [Option.toList_map]
  exact flatMap_map_atoms _ h

/-- The atoms of a relabelled type are the relabelled atoms. -/
theorem CType.atoms_relabel (c : CType) : (c.relabel ρ).atoms = c.atoms.map ρ.atom := by
  obtain ⟨base, u, k, p⟩ := c
  cases base <;> rfl

/-- The same for the kind of a marker. -/
theorem MarkerKind.atoms_relabel (kind : MarkerKind) :
    (kind.relabel ρ).atoms = kind.atoms.map ρ.atom := by
  cases kind <;> rfl

/-- The same for a marker. -/
theorem Marker.atoms_relabel (m : Marker) : (m.relabel ρ).atoms = m.atoms.map ρ.atom := by
  rw [relabel, atoms, MarkerKind.atoms_relabel]
  rfl

mutual

/-- The atoms of a relabelled expression are the relabelled atoms. -/
theorem Expr.atoms_relabel : ∀ e : Expr, (e.relabel ρ).atoms = e.atoms.map ρ.atom
  | .ident .. | .int .. | .float .. | .char .. | .string .. => rfl
  | .unary _ e _ | .member e _ _ _ => by
      rw [relabel, atoms, atoms_relabel e]
      rfl
  | .binary _ a b _ | .assign _ a b _ | .index a b _ => by
      rw [relabel, atoms, atoms_relabel a, atoms_relabel b, ← List.map_append]
      rfl
  | .call f args _ => by
      rw [relabel, atoms, atoms_relabel f, atomsList_relabelList args, ← List.map_append]
      rfl
  | .cast type e _ => by
      rw [relabel, atoms, CType.atoms_relabel, atoms_relabel e, ← List.map_append]
      rfl
  | .ternary c a b _ => by
      rw [relabel, atoms, atoms_relabel c, atoms_relabel a, atoms_relabel b, ← List.map_append,
        ← List.map_append]
      rfl
  | .comma parts _ => by
      rw [relabel, atoms, atomsList_relabelList parts]
      rfl
  | .sizeOfType type _ => by
      rw [relabel, atoms, CType.atoms_relabel]
      rfl

theorem Expr.atomsList_relabelList :
    ∀ es : List Expr, atomsList (relabelList ρ es) = (atomsList es).map ρ.atom
  | [] => rfl
  | e :: rest => by
      rw [relabelList, atomsList, atoms_relabel e, atomsList_relabelList rest, ← List.map_append]
      rfl

end

/-- The same for a declarator. -/
theorem Declarator.atoms_relabel (d : Declarator) : (d.relabel ρ).atoms = d.atoms.map ρ.atom := by
  rw [relabel, atoms, Expr.atomsList_relabelList,
    Relabelling.flatMap_optionMap_atoms _ Expr.atoms_relabel, ← List.map_append]
  rfl

/-- The same for a declaration. -/
theorem Declaration.atoms_relabel (d : Declaration) :
    (d.relabel ρ).atoms = d.atoms.map ρ.atom := by
  rw [relabel, atoms, CType.atoms_relabel, Relabelling.flatMap_map_atoms _ Marker.atoms_relabel,
    Relabelling.flatMap_map_atoms _ Declarator.atoms_relabel, ← List.map_append,
    ← List.map_append]
  rfl

/-- The same for an init clause. -/
theorem ForInit.atoms_relabel (init : ForInit) :
    (init.relabel ρ).atoms = init.atoms.map ρ.atom := by
  cases init with
  | decl d => exact Declaration.atoms_relabel d
  | expr e => exact Expr.atoms_relabel e

/-- The same for a loop header. -/
theorem LoopHeader.atoms_relabel (h : LoopHeader) : (h.relabel ρ).atoms = h.atoms.map ρ.atom := by
  rw [relabel, atoms, Relabelling.flatMap_map_atoms _ Marker.atoms_relabel,
    Relabelling.flatMap_optionMap_atoms _ ForInit.atoms_relabel,
    Relabelling.flatMap_optionMap_atoms _ Expr.atoms_relabel,
    Relabelling.flatMap_optionMap_atoms _ Expr.atoms_relabel, ← List.map_append,
    ← List.map_append, ← List.map_append]
  rfl

mutual

/-- The atoms of a relabelled statement are the relabelled atoms. -/
theorem Stmt.atoms_relabel : ∀ s : Stmt, (s.relabel ρ).atoms = s.atoms.map ρ.atom
  | .expr e _ => by
      rw [relabel, atoms, Expr.atoms_relabel]
      rfl
  | .decl d _ => by
      rw [relabel, atoms, Declaration.atoms_relabel]
      rfl
  | .block stmts _ _ => by
      rw [relabel, atoms, atomsList_relabelList stmts]
      rfl
  | .ifThen c a _ | .whileLoop c a _ | .doWhile a c _ | .switch c a _ => by
      rw [relabel, atoms, Expr.atoms_relabel, atoms_relabel a, ← List.map_append]
      rfl
  | .ifElse c a b _ => by
      rw [relabel, atoms, Expr.atoms_relabel, atoms_relabel a, atoms_relabel b, ← List.map_append,
        ← List.map_append]
      rfl
  | .forLoop header body _ => by
      rw [relabel, atoms, LoopHeader.atoms_relabel, atoms_relabel body, ← List.map_append]
      rfl
  | .caseLabel value _ | .returnJump value _ => by
      rw [relabel, atoms, Relabelling.flatMap_optionMap_atoms _ Expr.atoms_relabel]
      rfl
  | .breakJump _ | .continueJump _ | .empty _ => rfl

theorem Stmt.atomsList_relabelList :
    ∀ stmts : List Stmt, atomsList (relabelList ρ stmts) = (atomsList stmts).map ρ.atom
  | [] => rfl
  | s :: rest => by
      rw [relabelList, atomsList, atoms_relabel s, atomsList_relabelList rest, ← List.map_append]
      rfl

end

/-- The same for a parameter. -/
theorem Param.atoms_relabel (p : Param) : (p.relabel ρ).atoms = p.atoms.map ρ.atom := by
  rw [relabel, atoms, CType.atoms_relabel]
  rfl

/-- The places and names of a relabelled function are those of the function,
relabelled. -/
theorem Function.atoms_relabel (f : Function) : (f.relabel ρ).atoms = f.atoms.map ρ.atom := by
  rw [relabel, atoms, Relabelling.flatMap_map_atoms _ Marker.atoms_relabel,
    Relabelling.flatMap_map_atoms _ Param.atoms_relabel, CType.atoms_relabel, Block.relabel,
    Block.atoms, Stmt.atomsList_relabelList]
  simp [atoms, Block.atoms, Relabelling.atom]

/-- The atoms of a relabelled problem are the relabelled atoms. -/
theorem Problem.atoms_relabel (p : Problem) : (p.relabel ρ).atoms = p.atoms.map ρ.atom := by
  cases p with
  | unknownAttribute _ kind _ | duplicateAttribute _ kind _ =>
      rw [relabel, atoms, MarkerKind.atoms_relabel]
      rfl
  | _ => rfl

/-- The same for a verdict. -/
theorem Verdict.atoms_relabel (v : Verdict) : (v.relabel ρ).atoms = v.atoms.map ρ.atom := by
  rw [relabel, atoms, Relabelling.flatMap_map_atoms _ Problem.atoms_relabel]
  rfl

/-! ## Atoms of the parts of a verdict or a kernel -/

/-- The atoms of a problem are among those of its verdict. -/
theorem Problem.atoms_subset_verdict {p : Problem} {v : Verdict} (hp : p ∈ v.problems) :
    p.atoms ⊆ v.atoms := by
  intro a ha
  have hproblems : a ∈ v.problems.flatMap (·.atoms) := List.mem_flatMap.mpr ⟨p, hp, ha⟩
  exact List.mem_cons_of_mem _ (List.mem_cons_of_mem _ hproblems)

/-- The statements of a function stand together in it. -/
theorem Function.atoms_stmts_sublist (f : Function) :
    (Stmt.atomsList f.body.stmts).Sublist f.atoms := by
  have hbody : (Stmt.atomsList f.body.stmts).Sublist f.body.atoms := (List.Sublist.refl _).cons _
  have hreturns := hbody.trans (List.sublist_append_right f.returns.atoms _)
  have hparams := hreturns.trans (List.sublist_append_right (f.params.flatMap (·.atoms)) _)
  have hmarkers := hparams.trans (List.sublist_append_right (f.markers.flatMap (·.atoms)) _)
  exact (hmarkers.cons _).cons _

namespace Stmt

mutual

/-- The loops of a statement stand apart from each other in it. -/
theorem atoms_loops_sublist : ∀ s : Stmt, (s.loops.flatMap (·.atoms)).Sublist s.atoms
  | .expr .. | .decl .. | .caseLabel .. | .breakJump .. | .continueJump .. | .returnJump ..
  | .empty .. => List.nil_sublist _
  | .block stmts _ _ => ((atoms_loopsList_sublist stmts).cons _).cons _
  | .ifThen _ a _ | .whileLoop _ a _ | .switch _ a _ =>
      ((atoms_loops_sublist a).trans (List.sublist_append_right _ _)).cons _
  | .doWhile a _ _ => ((atoms_loops_sublist a).trans (List.sublist_append_left _ _)).cons _
  | .ifElse _ a b _ => by
      have hbranches := (atoms_loops_sublist a).append (atoms_loops_sublist b)
      rw [loops, List.flatMap_append]
      exact (hbranches.trans (List.sublist_append_right _ _)).cons _
  | .forLoop header body _ => by
      rw [loops, List.flatMap_cons]
      exact ((atoms_loops_sublist body).append_left header.atoms).cons _

theorem atoms_loopsList_sublist :
    ∀ stmts : List Stmt, ((loopsList stmts).flatMap (·.atoms)).Sublist (atomsList stmts)
  | [] => List.nil_sublist _
  | s :: rest => by
      rw [loopsList, List.flatMap_append]
      exact (atoms_loops_sublist s).append (atoms_loopsList_sublist rest)

end

end Stmt

/-- The markers of a node. -/
def MarkerSite.markers : MarkerSite → List Marker
  | .loop header => header.markers
  | .declaration d => d.markers

def MarkerSite.atoms (site : MarkerSite) : List Atom := site.markers.flatMap (·.atoms)

end KernelCheck
