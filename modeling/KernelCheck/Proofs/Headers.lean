import KernelCheck.Proofs.Families
import KernelCheck.Proofs.Occurrences
import KernelCheck.Proofs.Places
import Mathlib.Data.List.Basic

/-!
# Well-formed headers

The rules on headers look at one clause after the other and stop at the first thing
that is wrong with it.  Here each clause is described by the forms that it may have,
without an order in which to look.

* `LoopHeader.induction_eq_ok_iff`, `LoopHeader.testIssue?_eq_none_iff`,
  `LoopHeader.updateIssue?_eq_none_iff` — nothing is wrong with a clause that has
  one of its forms.
* `LoopHeader.shape_eq_ok_iff` — a header is well formed if its clauses are.
* `shape_judges_clauses` — how the problems of a header are put together, and those of a
  kernel.
-/

namespace KernelCheck

namespace Expr

/-- The variable is mentioned nowhere in the expression. -/
def IsFreeOf (e : Expr) (v : Name) : Prop := ∀ o ∈ e.occurrences, o.1 ≠ v

/-- The search for a name comes to nothing if the expression is free of it. -/
theorem mentions_eq_false_iff (e : Expr) (v : Name) : e.mentions v = false ↔ e.IsFreeOf v := by
  simp [mentions, firstOccurrence?_eq_find?, IsFreeOf]

/-- The steps that add an amount to a variable, or take one off it, where the amount
does not mention the variable. -/
inductive IsStep (v : Name) : Expr → Prop
  | one {op : UnaryOp} {s span : Span} (hop : op ∈ [.preInc, .postInc, .preDec, .postDec]) :
      IsStep v (.unary op (.ident v s) span)
  | addAssign {k : Expr} {s span : Span} (hk : k.IsFreeOf v) :
      IsStep v (.assign .add (.ident v s) k span)
  | subAssign {k : Expr} {s span : Span} (hk : k.IsFreeOf v) :
      IsStep v (.assign .sub (.ident v s) k span)
  | assignAdd {k : Expr} {s s' span' span : Span} (hk : k.IsFreeOf v) :
      IsStep v (.assign .assign (.ident v s) (.binary .add (.ident v s') k span') span)
  | assignSub {k : Expr} {s s' span' span : Span} (hk : k.IsFreeOf v) :
      IsStep v (.assign .assign (.ident v s) (.binary .sub (.ident v s') k span') span)
  | assignAddTo {k : Expr} {s s' span' span : Span} (hk : k.IsFreeOf v) :
      IsStep v (.assign .assign (.ident v s) (.binary .add k (.ident v s') span') span)

/-- An expression is a name if it is a variable of that name. -/
theorem ident?_eq_some_iff (e : Expr) (v : Name) : e.ident? = some v ↔ ∃ s, e = .ident v s := by
  cases e <;> simp [ident?]

/-- Nothing is wrong with an amount that is free of the variable. -/
theorem amountIssue?_eq_none_iff (k : Expr) (v : Name) :
    k.amountIssue? v = none ↔ k.IsFreeOf v := by
  rw [← mentions_eq_false_iff, amountIssue?]
  cases k.mentions v <;> simp

/-- What may be assigned to a variable as its next value. -/
theorem nextValueIssue?_eq_none_iff (value : Expr) (v : Name) :
    value.nextValueIssue? v = none ↔
      ∃ k s span, k.IsFreeOf v ∧
        (value = .binary .add (.ident v s) k span ∨ value = .binary .sub (.ident v s) k span ∨
          value = .binary .add k (.ident v s) span) := by
  constructor
  · intro h
    cases value with
    | binary op left right span =>
        simp only [nextValueIssue?, Bool.and_eq_true, decide_eq_true_eq] at h
        split at h
        case isTrue hleft =>
          obtain ⟨s, rfl⟩ := (ident?_eq_some_iff left v).mp hleft.2
          refine ⟨right, s, span, (amountIssue?_eq_none_iff right v).mp h, ?_⟩
          cases op <;> simp [BinaryOp.isAdditive] at hleft ⊢
        case isFalse =>
          split at h
          case isTrue hright =>
            obtain ⟨rfl, hident⟩ := hright
            obtain ⟨s, rfl⟩ := (ident?_eq_some_iff right v).mp hident
            exact ⟨left, s, span, (amountIssue?_eq_none_iff left v).mp h, Or.inr (Or.inr rfl)⟩
          case isFalse => cases h
    | _ => cases h
  · rintro ⟨k, s, span, hk, rfl | rfl | rfl⟩
    · simpa [nextValueIssue?, ident?, BinaryOp.isAdditive] using
        (amountIssue?_eq_none_iff k v).mpr hk
    · simpa [nextValueIssue?, ident?, BinaryOp.isAdditive] using
        (amountIssue?_eq_none_iff k v).mpr hk
    · have hne : k.ident? ≠ some v := by
        intro hident
        obtain ⟨s', rfl⟩ := (ident?_eq_some_iff k v).mp hident
        exact hk (v, s') (by simp [occurrences]) rfl
      have hself : (ident v s).ident? = some v := rfl
      simpa [nextValueIssue?, hne, hself] using (amountIssue?_eq_none_iff k v).mpr hk

/-- Nothing is wrong with an update that is a step of the variable. -/
theorem stepIssue?_eq_none_iff (update : Expr) (v : Name) :
    update.stepIssue? v = none ↔ update.IsStep v := by
  constructor
  · intro h
    cases update with
    | unary op operand span =>
        simp only [stepIssue?] at h
        split at h
        case isTrue => cases h
        case isFalse hop =>
          split at h
          case isTrue hident =>
            obtain ⟨s, rfl⟩ := (ident?_eq_some_iff operand v).mp hident
            apply IsStep.one
            cases op <;> simp [UnaryOp.isStep] at hop ⊢
          case isFalse => cases h
    | assign op target value span =>
        simp only [stepIssue?] at h
        split at h
        case isTrue => cases h
        case isFalse hident =>
          obtain ⟨s, rfl⟩ := (ident?_eq_some_iff target v).mp (by simpa using hident)
          cases op with
          | add => exact .addAssign ((amountIssue?_eq_none_iff value v).mp h)
          | sub => exact .subAssign ((amountIssue?_eq_none_iff value v).mp h)
          | assign =>
              obtain ⟨k, s', span', hk, rfl | rfl | rfl⟩ :=
                (nextValueIssue?_eq_none_iff value v).mp h
              · exact .assignAdd hk
              · exact .assignSub hk
              · exact .assignAddTo hk
          | _ => cases h
    | _ => cases h
  · intro h
    cases h with
    | one hop =>
        simp only [List.mem_cons, List.not_mem_nil, or_false] at hop
        rcases hop with rfl | rfl | rfl | rfl <;> simp [stepIssue?, UnaryOp.isStep, ident?]
    | addAssign hk => simpa [stepIssue?, ident?] using (amountIssue?_eq_none_iff _ v).mpr hk
    | subAssign hk => simpa [stepIssue?, ident?] using (amountIssue?_eq_none_iff _ v).mpr hk
    | assignAdd hk =>
        simpa [stepIssue?, ident?] using
          (nextValueIssue?_eq_none_iff _ v).mpr ⟨_, _, _, hk, Or.inl rfl⟩
    | assignSub hk =>
        simpa [stepIssue?, ident?] using
          (nextValueIssue?_eq_none_iff _ v).mpr ⟨_, _, _, hk, Or.inr (Or.inl rfl)⟩
    | assignAddTo hk =>
        simpa [stepIssue?, ident?] using
          (nextValueIssue?_eq_none_iff _ v).mpr ⟨_, _, _, hk, Or.inr (Or.inr rfl)⟩

end Expr

/-- The integer types: no pointers, and either a keyword or a typedef of the standard headers. -/
def CType.IsInteger (t : Interner) (c : CType) : Prop :=
  c.pointerDepth = 0 ∧
    (c.base ∈ [.char, .short, .int, .long, .longLong] ∨
      ∃ name, c.base = .named name ∧ t.lookup name ∈ CType.integerTypedefs)

/-- The test of a type accepts the integer types. -/
theorem CType.isIntegral_iff (t : Interner) (c : CType) :
    c.isIntegral t = true ↔ c.IsInteger t := by
  unfold isIntegral IsInteger
  cases c.base <;> simp [BaseType.isIntegerKeyword]

namespace LoopHeader

/-- The first clause declares `v`, and nothing else, as an integer with an initial value. -/
def Declares (t : Interner) (h : LoopHeader) (v : Name) : Prop :=
  ∃ d only, h.init = some (.decl d) ∧ d.declarators = [only] ∧ only.name = v ∧
    only.dims = [] ∧ only.init.isSome ∧ d.type.IsInteger t

/-- The test compares `v`, by order, with something. -/
def Compares (h : LoopHeader) (v : Name) : Prop :=
  ∃ op s right span, h.test = some (.binary op (.ident v s) right span) ∧
    op ∈ [BinaryOp.lt, .le, .gt, .ge]

/-- The update is a step of `v`. -/
def Steps (h : LoopHeader) (v : Name) : Prop := ∃ update, h.update = some update ∧ update.IsStep v

/-- An init clause is accepted if it declares the variable as it should. -/
theorem induction_eq_ok_iff (t : Interner) (h : LoopHeader) (v : Name) :
    h.induction t = .ok v ↔ h.Declares t v := by
  constructor
  · intro hok
    unfold induction at hok
    split at hok
    case h_1 => cases hok
    case h_2 => cases hok
    case h_3 d hinit =>
      split at hok
      case h_2 => cases hok
      case h_1 only hdeclarators =>
        split at hok
        case isTrue => cases hok
        case isFalse hdims =>
          split at hok
          case isTrue => cases hok
          case isFalse hvalue =>
            split at hok
            case isTrue => cases hok
            case isFalse htype =>
              obtain rfl : only.name = v := by simpa using hok
              refine ⟨d, only, hinit, hdeclarators, rfl, by simpa using hdims, ?_, ?_⟩
              · simpa [Option.isSome_iff_ne_none] using hvalue
              · rw [← CType.isIntegral_iff]
                simpa using htype
  · rintro ⟨d, only, hinit, hdeclarators, rfl, hdims, hvalue, htype⟩
    have htype := (CType.isIntegral_iff t d.type).mpr htype
    simp [induction, hinit, hdeclarators, hdims, Option.isSome_iff_ne_none.mp hvalue, htype]

/-- A clause that declares one name says which, whatever else is wrong with it. -/
theorem inductionProblem_snd (t : Interner) (h : LoopHeader) :
    (h.inductionProblem t).2 = h.declaredVar? := by
  obtain ⟨init, test, update, markers, span⟩ := h
  rcases init with _ | ⟨⟨type, _ | ⟨only, _ | ⟨second, rest⟩⟩, dmarkers, dspan⟩⟩ | e
  · rfl
  · rfl
  · cases hdims : only.dims.isEmpty <;> cases hvalue : only.init <;>
      cases htype : type.isIntegral t <;>
      simp [inductionProblem, induction, declaredVar?, hdims, hvalue, htype]
  · rfl
  · rfl

/-- A test is accepted if it compares the variable. -/
theorem testIssue?_eq_none_iff (h : LoopHeader) (v : Name) :
    h.testIssue? v = none ↔ h.Compares v := by
  constructor
  · intro hnone
    unfold testIssue? at hnone
    split at hnone
    case h_1 => cases hnone
    case h_3 => cases hnone
    case h_2 op left right span htest =>
      split at hnone
      case isTrue => cases hnone
      case isFalse hop =>
        split at hnone
        case isFalse => cases hnone
        case isTrue hident =>
          obtain ⟨s, rfl⟩ := (Expr.ident?_eq_some_iff left v).mp hident
          refine ⟨op, s, right, span, htest, ?_⟩
          cases op <;> simp [BinaryOp.isRelational] at hop ⊢
  · rintro ⟨op, s, right, span, htest, hop⟩
    simp only [List.mem_cons, List.not_mem_nil, or_false] at hop
    rcases hop with rfl | rfl | rfl | rfl <;>
      simp [testIssue?, htest, BinaryOp.isRelational, Expr.ident?]

/-- An update is accepted if it steps the variable. -/
theorem updateIssue?_eq_none_iff (h : LoopHeader) (v : Name) :
    h.updateIssue? v = none ↔ h.Steps v := by
  unfold updateIssue? Steps
  cases h.update with
  | none => simp
  | some update => simp [Expr.stepIssue?_eq_none_iff]

/-- No problem with the init clause means that it declares some variable as it should. -/
theorem inductionProblem_fst_eq_none_iff (t : Interner) (h : LoopHeader) :
    (h.inductionProblem t).1 = none ↔ ∃ v, h.Declares t v := by
  simp only [← induction_eq_ok_iff, inductionProblem]
  cases h.induction t <;> simp

/-- The problems with the three clauses of a header.  The test and the update are
judged if the first clause declares exactly one name, and against that. -/
structure ClauseProblems (t : Interner) (h : LoopHeader) (init test update : Option Problem) :
    Prop where
  init_eq_none_iff : init = none ↔ ∃ v, h.Declares t v
  of_init : ∀ p ∈ init, ∃ span issue, p = .badInduction span h.span issue
  test_eq_none_iff : ∀ v, h.declaredVar? = some v → (test = none ↔ h.Compares v)
  of_test : ∀ p ∈ test, ∃ v span issue, h.declaredVar? = some v ∧ p = .badTest span v issue
  update_eq_none_iff : ∀ v, h.declaredVar? = some v → (update = none ↔ h.Steps v)
  of_update : ∀ p ∈ update, ∃ v span issue, h.declaredVar? = some v ∧ p = .badUpdate span v issue

/-- The problems with the three clauses are those that the grammar of clauses asks for. -/
theorem clauseProblems (t : Interner) (h : LoopHeader) :
    h.ClauseProblems t (h.inductionProblem t).1 (h.declaredVar?.bind h.testProblem?)
      (h.declaredVar?.bind h.updateProblem?) := by
  constructor
  case init_eq_none_iff => exact h.inductionProblem_fst_eq_none_iff t
  case of_init =>
    intro p hp
    unfold inductionProblem at hp
    cases hind : h.induction t with
    | ok v => rw [hind] at hp; cases hp
    | error e =>
        obtain ⟨issue, span, var⟩ := e
        rw [hind] at hp
        exact ⟨span, issue, (Option.some.inj hp).symm⟩
  case test_eq_none_iff =>
    intro v hv
    simp [hv, testProblem?, testIssue?_eq_none_iff]
  case of_test =>
    intro p hp
    obtain ⟨v, hv, hp⟩ := Option.bind_eq_some_iff.mp hp
    obtain ⟨⟨issue, span⟩, _, rfl⟩ := Option.map_eq_some_iff.mp hp
    exact ⟨v, span, issue, hv, rfl⟩
  case update_eq_none_iff =>
    intro v hv
    simp [hv, updateProblem?, updateIssue?_eq_none_iff]
  case of_update =>
    intro p hp
    obtain ⟨v, hv, hp⟩ := Option.bind_eq_some_iff.mp hp
    obtain ⟨⟨issue, span⟩, _, rfl⟩ := Option.map_eq_some_iff.mp hp
    exact ⟨v, span, issue, hv, rfl⟩

/-- The problems of a header that is not well formed are those of its clauses. -/
theorem eq_of_shape_eq_error {t : Interner} {h : LoopHeader} {problems : List Problem}
    (herror : h.shape t = .error problems) :
    problems = (h.inductionProblem t).1.toList ++
      ((h.declaredVar?.bind h.testProblem?).toList ++
        (h.declaredVar?.bind h.updateProblem?).toList) := by
  rw [← inductionProblem_snd t]
  unfold shape at herror
  split at herror
  case h_1 problem heq =>
    obtain rfl := Except.error.inj herror
    simp [heq]
  case h_2 problem var heq =>
    dsimp only at herror
    split at herror
    case isTrue => cases herror
    case isFalse =>
      obtain rfl := Except.error.inj herror
      simp [heq]

/-- The variable of a loop without a bad init clause is the declared one. -/
theorem inductionProblem_eq_iff (t : Interner) (h : LoopHeader) (v : Name) :
    h.inductionProblem t = (none, some v) ↔ h.Declares t v := by
  rw [← induction_eq_ok_iff, inductionProblem]
  cases h.induction t <;> simp

/-- **A header is well formed** if its clauses are, all about one variable. -/
theorem shape_eq_ok_iff (t : Interner) (h : LoopHeader) (v : Name) :
    h.shape t = .ok v ↔ h.Declares t v ∧ h.Compares v ∧ h.Steps v := by
  rw [← testIssue?_eq_none_iff, ← updateIssue?_eq_none_iff]
  constructor
  · intro hok
    unfold shape at hok
    split at hok
    case h_1 => cases hok
    case h_2 problem var heq =>
      dsimp only at hok
      split at hok
      case isFalse => cases hok
      case isTrue hnone =>
        obtain rfl := Except.ok.inj hok
        simp only [List.isEmpty_iff, List.append_eq_nil_iff, Option.toList_eq_nil_iff] at hnone
        obtain ⟨⟨rfl, htest⟩, hupdate⟩ := hnone
        exact ⟨(inductionProblem_eq_iff t h var).mp heq, Option.map_eq_none_iff.mp htest,
          Option.map_eq_none_iff.mp hupdate⟩
  · rintro ⟨hdeclares, htest, hupdate⟩
    simp [shape, (inductionProblem_eq_iff t h v).mpr hdeclares, testProblem?, htest,
      updateProblem?, hupdate]

end LoopHeader

/-- The headers that are judged are those of the outer and inner loops. -/
theorem Subject.headerProblems_eq (s : Subject) :
    s.headerProblems = (s.kernel.placed.filterMap (·.stmt.gridLoop?)).flatMap fun h =>
      match h.shape s.names with
      | .ok _ => []
      | .error problems => problems := by
  rw [headerProblems, Function.loops_eq_filterMap]
  simp only [List.filterMap_eq_flatMap_toList, List.flatMap_assoc]
  congr 1
  funext x
  unfold Stmt.gridLoop?
  rcases x.stmt.loop? with _ | header
  · rfl
  · cases hrole : header.role.isAttributed
    · simp [LoopHeader.shapeProblems, Option.filter, hrole]
    · simp only [Option.filter, hrole, if_true, Option.toList_some, List.flatMap_singleton]
      exact if_pos hrole

/-- **Headers, clause by clause.**  A header is well formed if it declares an integer,
compares it and steps it.  Otherwise its problems are at most one for each clause:
for the first, if that does not declare an integer; for the test and the
update, if the header declares exactly one name and they do not compare or step that.  If
all problems are wanted, the rules on headers list those of each outer or inner
loop, in source order. -/
theorem shape_judges_clauses :
    (∀ (t : Interner) (h : LoopHeader) (v : Name),
      h.shape t = .ok v ↔ h.Declares t v ∧ h.Compares v ∧ h.Steps v) ∧
    (∀ (t : Interner) (h : LoopHeader), ∃ init test update, h.ClauseProblems t init test update ∧
      ((∃ v, h.shape t = .ok v) ∨
        h.shape t = .error (init.toList ++ (test.toList ++ update.toList)))) ∧
    ∀ s : Subject, (Stage.headers s (.empty .all)).problems =
      (s.kernel.placed.filterMap (·.stmt.gridLoop?)).flatMap fun h =>
        match h.shape s.names with
        | .ok _ => []
        | .error problems => problems := by
  refine ⟨LoopHeader.shape_eq_ok_iff, ?_, ?_⟩
  · intro t h
    refine ⟨_, _, _, h.clauseProblems t, ?_⟩
    cases hshape : h.shape t with
    | ok v => exact Or.inl ⟨v, rfl⟩
    | error problems => exact Or.inr (congrArg _ (LoopHeader.eq_of_shape_eq_error hshape))
  · intro s
    rw [(Stage.headers_finds s).all_eq, s.headerProblems_eq]

end KernelCheck
