import KernelCheck.Document.ToModule
import KernelCheck.Proofs.Relabelling.Basic

/-!
# The details of a function

The atoms of a function are what a relabelling sees of it.  They do not tell the name of
a parameter from a mention of it, nor a string literal from the word of a marker.  A
*detail* is an atom that still knows what it is there for.

* `Function.atoms_eq_map` — the atoms of a function are its details, in the same order,
  without what they are there for.
* `Stmt.details_markerSitesList_sublist` — the details of the loops and declarations that
  carry markers are among those of the statements around them.
-/

namespace KernelCheck

/-- A place or a name in a function. -/
inductive Detail where
  | place (span : Span)
  /-- The place of a statement around a declaration, a block or a loop. -/
  | wrapper (span : Span)
  | name (role : NameRole) (name : Name)
  /-- The text of a string literal, which names nothing. -/
  | literal (text : Name)
  deriving DecidableEq

/-- What a relabelling sees of a detail. -/
def Detail.atom : Detail → Atom
  | .place s => .place s
  | .wrapper s => .wrapper s
  | .name .function n => .function n
  | .name .parameter n | .name .declarator n | .name .identifier n => .var n
  | .name .field n | .name .type n | .name .marker n => .word n
  | .literal n => .word n

/-! ## Details of syntax trees -/

def CType.details (c : CType) : List Detail :=
  match c.base with
  | .named n => [.name .type n]
  | _ => []

def Marker.details (m : Marker) : List Detail :=
  match m.kind with
  | .custom n => [.place m.span, .name .marker n]
  | _ => [.place m.span]

mutual

def Expr.details : Expr → List Detail
  | .ident n s => [.place s, .name .identifier n]
  | .int _ s | .float _ s | .char _ s => [.place s]
  | .string text s => [.place s, .literal text]
  | .unary _ e s => .place s :: e.details
  | .binary _ a b s | .assign _ a b s | .index a b s => .place s :: (a.details ++ b.details)
  | .call f args s => .place s :: (f.details ++ Expr.detailsList args)
  | .member e field _ s => .place s :: .name .field field :: e.details
  | .cast type e s => .place s :: (type.details ++ e.details)
  | .ternary c a b s => .place s :: (c.details ++ (a.details ++ b.details))
  | .comma exprs s => .place s :: Expr.detailsList exprs
  | .sizeOfType type s => .place s :: type.details

def Expr.detailsList : List Expr → List Detail
  | [] => []
  | e :: rest => e.details ++ Expr.detailsList rest

end

def Declarator.details (d : Declarator) : List Detail :=
  .place d.span :: .name .declarator d.name ::
    (Expr.detailsList d.dims ++ d.init.toList.flatMap (·.details))

def Declaration.details (d : Declaration) : List Detail :=
  .place d.span ::
    (d.markers.flatMap (·.details) ++ (d.type.details ++ d.declarators.flatMap (·.details)))

def ForInit.details : ForInit → List Detail
  | .decl d => d.details
  | .expr e => e.details

def LoopHeader.details (h : LoopHeader) : List Detail :=
  .place h.span ::
    (h.markers.flatMap (·.details) ++ (h.init.toList.flatMap (·.details) ++
      (h.test.toList.flatMap (·.details) ++ h.update.toList.flatMap (·.details))))

mutual

def Stmt.details : Stmt → List Detail
  | .expr e s => .place s :: e.details
  | .decl d s => .wrapper s :: d.details
  | .block stmts blockSpan s => .wrapper s :: .place blockSpan :: Stmt.detailsList stmts
  | .ifThen c a s => .place s :: (c.details ++ a.details)
  | .ifElse c a b s => .place s :: (c.details ++ (a.details ++ b.details))
  | .forLoop header body s => .wrapper s :: (header.details ++ body.details)
  | .whileLoop c body s => .place s :: (c.details ++ body.details)
  | .doWhile body c s => .place s :: (body.details ++ c.details)
  | .switch e body s => .place s :: (e.details ++ body.details)
  | .caseLabel value s | .returnJump value s => .place s :: value.toList.flatMap (·.details)
  | .breakJump s | .continueJump s | .empty s => [.place s]

def Stmt.detailsList : List Stmt → List Detail
  | [] => []
  | s :: rest => s.details ++ Stmt.detailsList rest

end

def Block.details (b : Block) : List Detail := .place b.span :: Stmt.detailsList b.stmts

def Param.details (p : Param) : List Detail :=
  .place p.span :: .name .parameter p.name :: p.type.details

/-- Every place and every name in a function, from left to right. -/
def Function.details (f : Function) : List Detail :=
  .place f.span :: .name .function f.name ::
    (f.markers.flatMap (·.details) ++ (f.params.flatMap (·.details) ++
      (f.returns.details ++ f.body.details)))

/-! ## Details and atoms -/

/-- The atoms of many parts are what their details show. -/
theorem flatMap_atoms_eq_map {α : Type} {atoms : α → List Atom} {details : α → List Detail}
    (h : ∀ x, atoms x = (details x).map Detail.atom) (xs : List α) :
    xs.flatMap atoms = (xs.flatMap details).map Detail.atom := by
  have hatoms : atoms = fun x => (details x).map Detail.atom := funext h
  rw [hatoms, List.map_flatMap]

/-- The atoms of a type are what its details show. -/
theorem CType.atoms_eq_map (c : CType) : c.atoms = c.details.map Detail.atom := by
  obtain ⟨base, isUnsigned, isConst, pointerDepth⟩ := c
  cases base <;> rfl

/-- The same for a marker. -/
theorem Marker.atoms_eq_map (m : Marker) : m.atoms = m.details.map Detail.atom := by
  obtain ⟨kind, span⟩ := m
  cases kind <;> rfl

mutual

/-- The atoms of an expression are what its details show. -/
theorem Expr.atoms_eq_map : ∀ e : Expr, e.atoms = e.details.map Detail.atom
  | .ident .. | .int .. | .float .. | .char .. | .string .. => rfl
  | .unary _ e _ | .member e _ _ _ => by
      rw [atoms, atoms_eq_map e]
      rfl
  | .binary _ a b _ | .assign _ a b _ | .index a b _ => by
      rw [atoms, atoms_eq_map a, atoms_eq_map b, ← List.map_append]
      rfl
  | .call f args _ => by
      rw [atoms, atoms_eq_map f, atomsList_eq_map args, ← List.map_append]
      rfl
  | .cast type e _ => by
      rw [atoms, CType.atoms_eq_map, atoms_eq_map e, ← List.map_append]
      rfl
  | .ternary c a b _ => by
      rw [atoms, atoms_eq_map c, atoms_eq_map a, atoms_eq_map b, ← List.map_append,
        ← List.map_append]
      rfl
  | .comma exprs _ => by
      rw [atoms, atomsList_eq_map exprs]
      rfl
  | .sizeOfType type _ => by
      rw [atoms, CType.atoms_eq_map]
      rfl

theorem Expr.atomsList_eq_map : ∀ es : List Expr, atomsList es = (detailsList es).map Detail.atom
  | [] => rfl
  | e :: rest => by
      rw [atomsList, atoms_eq_map e, atomsList_eq_map rest, ← List.map_append]
      rfl

end

/-- The same for a declarator. -/
theorem Declarator.atoms_eq_map (d : Declarator) : d.atoms = d.details.map Detail.atom := by
  rw [atoms, Expr.atomsList_eq_map, flatMap_atoms_eq_map Expr.atoms_eq_map, ← List.map_append]
  rfl

/-- The same for a declaration. -/
theorem Declaration.atoms_eq_map (d : Declaration) : d.atoms = d.details.map Detail.atom := by
  rw [atoms, CType.atoms_eq_map, flatMap_atoms_eq_map Marker.atoms_eq_map,
    flatMap_atoms_eq_map Declarator.atoms_eq_map, ← List.map_append, ← List.map_append]
  rfl

/-- The same for an init clause. -/
theorem ForInit.atoms_eq_map (init : ForInit) : init.atoms = init.details.map Detail.atom := by
  cases init with
  | decl d => exact d.atoms_eq_map
  | expr e => exact e.atoms_eq_map

/-- The same for a loop header. -/
theorem LoopHeader.atoms_eq_map (h : LoopHeader) : h.atoms = h.details.map Detail.atom := by
  rw [atoms, flatMap_atoms_eq_map Marker.atoms_eq_map, flatMap_atoms_eq_map ForInit.atoms_eq_map,
    flatMap_atoms_eq_map Expr.atoms_eq_map, flatMap_atoms_eq_map Expr.atoms_eq_map,
    ← List.map_append, ← List.map_append, ← List.map_append]
  rfl

mutual

/-- The atoms of a statement are what its details show. -/
theorem Stmt.atoms_eq_map : ∀ s : Stmt, s.atoms = s.details.map Detail.atom
  | .expr e _ => by
      rw [atoms, e.atoms_eq_map]
      rfl
  | .decl d _ => by
      rw [atoms, d.atoms_eq_map]
      rfl
  | .block stmts _ _ => by
      rw [atoms, atomsList_eq_map stmts]
      rfl
  | .ifThen c a _ | .whileLoop c a _ | .doWhile a c _ | .switch c a _ => by
      rw [atoms, c.atoms_eq_map, atoms_eq_map a, ← List.map_append]
      rfl
  | .ifElse c a b _ => by
      rw [atoms, c.atoms_eq_map, atoms_eq_map a, atoms_eq_map b, ← List.map_append,
        ← List.map_append]
      rfl
  | .forLoop header body _ => by
      rw [atoms, header.atoms_eq_map, atoms_eq_map body, ← List.map_append]
      rfl
  | .caseLabel value _ | .returnJump value _ => by
      rw [atoms, flatMap_atoms_eq_map Expr.atoms_eq_map]
      rfl
  | .breakJump _ | .continueJump _ | .empty _ => rfl

theorem Stmt.atomsList_eq_map :
    ∀ stmts : List Stmt, atomsList stmts = (detailsList stmts).map Detail.atom
  | [] => rfl
  | s :: rest => by
      rw [atomsList, atoms_eq_map s, atomsList_eq_map rest, ← List.map_append]
      rfl

end

/-- The same for a parameter. -/
theorem Param.atoms_eq_map (p : Param) : p.atoms = p.details.map Detail.atom := by
  rw [atoms, CType.atoms_eq_map]
  rfl

/-- **The atoms of a function are its details**, without what they are there for. -/
theorem Function.atoms_eq_map (f : Function) : f.atoms = f.details.map Detail.atom := by
  rw [atoms, Block.atoms, Stmt.atomsList_eq_map, CType.atoms_eq_map,
    flatMap_atoms_eq_map Marker.atoms_eq_map, flatMap_atoms_eq_map Param.atoms_eq_map]
  simp [details, Block.details, Detail.atom]

/-! ## Details of the nodes with markers -/

def MarkerSite.details (site : MarkerSite) : List Detail := site.markers.flatMap (·.details)

/-- The same for a place with markers. -/
theorem MarkerSite.atoms_eq_map (site : MarkerSite) : site.atoms = site.details.map Detail.atom :=
  flatMap_atoms_eq_map Marker.atoms_eq_map site.markers

/-- The markers of a loop and of the declaration in its header. -/
theorem LoopHeader.details_sites_sublist (h : LoopHeader) :
    ((MarkerSite.loop h :: h.initSites).flatMap (·.details)).Sublist h.details := by
  have hinit : (h.initSites.flatMap (·.details)).Sublist (h.init.toList.flatMap (·.details)) := by
    unfold initSites
    split
    case h_1 d heq =>
      have hmarkers : (d.markers.flatMap (·.details)).Sublist d.details :=
        (List.sublist_append_left _ _).cons _
      simpa [heq, MarkerSite.details, MarkerSite.markers, ForInit.details] using hmarkers
    case h_2 => exact List.nil_sublist _
  exact ((hinit.trans (List.sublist_append_left _ _)).append_left _).cons _

namespace Stmt

mutual

/-- The details of the places for markers are among those of the statement, in order. -/
theorem details_markerSites_sublist :
    ∀ s : Stmt, (s.markerSites.flatMap (·.details)).Sublist s.details
  | .expr .. | .caseLabel .. | .breakJump .. | .continueJump .. | .returnJump .. | .empty .. =>
      List.nil_sublist _
  | .decl d _ => by
      rw [markerSites, List.flatMap_singleton]
      exact ((List.sublist_append_left _ _).cons _).cons _
  | .block stmts _ _ => ((details_markerSitesList_sublist stmts).cons _).cons _
  | .ifThen _ a _ | .whileLoop _ a _ | .switch _ a _ =>
      ((details_markerSites_sublist a).trans (List.sublist_append_right _ _)).cons _
  | .doWhile a _ _ =>
      ((details_markerSites_sublist a).trans (List.sublist_append_left _ _)).cons _
  | .ifElse _ a b _ => by
      have hbranches := (details_markerSites_sublist a).append (details_markerSites_sublist b)
      rw [markerSites, List.flatMap_append]
      exact (hbranches.trans (List.sublist_append_right _ _)).cons _
  | .forLoop header body _ => by
      have hloop := header.details_sites_sublist.append (details_markerSites_sublist body)
      rw [markerSites, ← List.cons_append, List.flatMap_append]
      exact hloop.cons _

theorem details_markerSitesList_sublist :
    ∀ stmts : List Stmt, ((markerSitesList stmts).flatMap (·.details)).Sublist (detailsList stmts)
  | [] => List.nil_sublist _
  | s :: rest => by
      rw [markerSitesList, List.flatMap_append]
      exact (details_markerSites_sublist s).append (details_markerSitesList_sublist rest)

end

/-- The nodes with markers stand apart from each other. -/
theorem atoms_markerSitesList_sublist (stmts : List Stmt) :
    ((markerSitesList stmts).flatMap (·.atoms)).Sublist (atomsList stmts) := by
  rw [flatMap_atoms_eq_map MarkerSite.atoms_eq_map, atomsList_eq_map]
  exact (details_markerSitesList_sublist stmts).map _

end Stmt

end KernelCheck
