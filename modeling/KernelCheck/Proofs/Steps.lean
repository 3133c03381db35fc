import KernelCheck.Proofs.Headers
import Mathlib.Logic.Function.Basic

/-!
# What the update of a well-formed header does

A launch grid needs the number of iterations of a loop, and that the induction variable
moves by the same amount each time.  The rules on headers only look at the text of
the update.  This file gives expressions a meaning and shows that the text is enough.

The meaning is as weak as it can be.  Values are exact integers, a variable has the value
that the environment gives it, and `+` and `-` add and subtract.  What any other
node means is left open: an `Evaluation` may choose any function of the operands' values
for it.

* `Expr.value_congr` — the value of an expression depends on the variables that it
  mentions, and on nothing else.
* `Expr.IsStep.execute_eq` — a step adds its amount to the variable.
* `shape_steps_by_amount` — the update of a well-formed header adds an amount to the
  induction variable that does not depend on that variable.
-/

namespace KernelCheck

/-- The values of the variables. -/
abbrev Env := Name → Int

/-- Some meaning for every node but variables, `+` and `-`, as a function of the values of its
operands.  An assignment inside an expression has a value here, and no effect. -/
structure Evaluation where
  int : Int → Int
  float : UInt64 → Int
  char : Char → Int
  string : Name → Int
  unary : UnaryOp → Int → Int
  binary : BinaryOp → Int → Int → Int
  assign : AssignOp → Int → Int → Int
  call : Int → List Int → Int
  index : Int → Int → Int
  member : Int → Name → Bool → Int
  cast : CType → Int → Int
  ternary : Int → Int → Int → Int
  comma : List Int → Int
  sizeOfType : CType → Int

/-- The value of `a op b`. -/
def Evaluation.apply (ev : Evaluation) : BinaryOp → Int → Int → Int
  | .add, a, b => a + b
  | .sub, a, b => a - b
  | op, a, b => ev.binary op a b

namespace Expr

mutual

/-- The value of an expression. -/
def value (ev : Evaluation) (env : Env) : Expr → Int
  | ident name _ => env name
  | int n _ => ev.int n
  | float bits _ => ev.float bits
  | char c _ => ev.char c
  | string text _ => ev.string text
  | unary op e _ => ev.unary op (e.value ev env)
  | binary op a b _ => ev.apply op (a.value ev env) (b.value ev env)
  | assign op a b _ => ev.assign op (a.value ev env) (b.value ev env)
  | call f args _ => ev.call (f.value ev env) (valueList ev env args)
  | index a b _ => ev.index (a.value ev env) (b.value ev env)
  | member e field arrow _ => ev.member (e.value ev env) field arrow
  | cast type e _ => ev.cast type (e.value ev env)
  | ternary c a b _ => ev.ternary (c.value ev env) (a.value ev env) (b.value ev env)
  | comma parts _ => ev.comma (valueList ev env parts)
  | sizeOfType type _ => ev.sizeOfType type

/-- The values of several expressions. -/
def valueList (ev : Evaluation) (env : Env) : List Expr → List Int
  | [] => []
  | e :: rest => e.value ev env :: valueList ev env rest

end

end Expr

/-- The operator that a compound assignment applies to the old value of its target; a
plain assignment drops the old value. -/
def AssignOp.binary? : AssignOp → Option BinaryOp
  | assign => none
  | add => some .add
  | sub => some .sub
  | mul => some .mul
  | div => some .div
  | mod => some .mod
  | shl => some .shl
  | shr => some .shr
  | bitAnd => some .bitAnd
  | bitOr => some .bitOr
  | bitXor => some .bitXor

/-- What a stepping operator adds to its operand. -/
def UnaryOp.increment? : UnaryOp → Option Int
  | preInc | postInc => some 1
  | preDec | postDec => some (-1)
  | _ => none

namespace Expr

/-- The environment after an expression that is executed for its effect.  Only steps
of, and assignments to, a plain variable have one that is known. -/
def execute (ev : Evaluation) (env : Env) : Expr → Option Env
  | unary op (ident name _) _ => op.increment?.map fun d => Function.update env name (env name + d)
  | assign op (ident name _) e _ =>
    let right := e.value ev env
    some (Function.update env name ((op.binary?.map (ev.apply · (env name) right)).getD right))
  | _ => none

/-! ## Values -/

mutual

/-- The value of an expression depends on the variables that it mentions only. -/
theorem value_congr (ev : Evaluation) {env env' : Env} :
    ∀ e : Expr, (∀ o ∈ e.occurrences, env o.1 = env' o.1) → e.value ev env = e.value ev env'
  | .ident name s, h => h (name, s) (List.mem_singleton.mpr rfl)
  | .int .., _ | .float .., _ | .char .., _ | .string .., _ | .sizeOfType .., _ => rfl
  | .unary op e _, h => congrArg (ev.unary op) (value_congr ev e h)
  | .member e field arrow _, h => congrArg (ev.member · field arrow) (value_congr ev e h)
  | .cast type e _, h => congrArg (ev.cast type) (value_congr ev e h)
  | .binary op a b _, h => by
      rw [occurrences, List.forall_mem_append] at h
      rw [value, value, value_congr ev a h.1, value_congr ev b h.2]
  | .assign op a b _, h => by
      rw [occurrences, List.forall_mem_append] at h
      rw [value, value, value_congr ev a h.1, value_congr ev b h.2]
  | .index a b _, h => by
      rw [occurrences, List.forall_mem_append] at h
      rw [value, value, value_congr ev a h.1, value_congr ev b h.2]
  | .call f args _, h => by
      rw [occurrences, List.forall_mem_append] at h
      rw [value, value, value_congr ev f h.1, valueList_congr ev args h.2]
  | .ternary c a b _, h => by
      rw [occurrences, List.forall_mem_append, List.forall_mem_append] at h
      rw [value, value, value_congr ev c h.1, value_congr ev a h.2.1, value_congr ev b h.2.2]
  | .comma parts _, h => congrArg ev.comma (valueList_congr ev parts h)

/-- The same for several expressions. -/
theorem valueList_congr (ev : Evaluation) {env env' : Env} :
    ∀ es : List Expr, (∀ o ∈ occurrencesList es, env o.1 = env' o.1) →
      valueList ev env es = valueList ev env' es
  | [], _ => rfl
  | e :: rest, h => by
      rw [occurrencesList, List.forall_mem_append] at h
      rw [valueList, valueList, value_congr ev e h.1, valueList_congr ev rest h.2]

end

/-- An expression that does not mention a variable has the same value whatever that
variable's value is. -/
theorem value_eq_of_isFreeOf {e : Expr} {v : Name} (he : e.IsFreeOf v) (ev : Evaluation)
    {env env' : Env} (henv : ∀ n ≠ v, env n = env' n) : e.value ev env = e.value ev env' :=
  value_congr ev e fun o ho => henv o.1 (he o ho)

/-! ## Steps -/

/-- **A step adds an amount** to its variable, and the amount is the same in environments
that differ only at that variable. -/
theorem IsStep.execute_eq {v : Name} {update : Expr} (h : update.IsStep v) (ev : Evaluation) :
    ∃ d : Env → Int,
      (∀ env, update.execute ev env = some (Function.update env v (env v + d env))) ∧
        ∀ env env', (∀ n ≠ v, env n = env' n) → d env = d env' := by
  cases h with
  | @one op _ _ hop =>
      obtain ⟨d, hd⟩ : ∃ d, op.increment? = some d := by
        simp only [List.mem_cons, List.not_mem_nil, or_false] at hop
        rcases hop with rfl | rfl | rfl | rfl <;> exact ⟨_, rfl⟩
      refine ⟨fun _ => d, ?_, fun _ _ _ => rfl⟩
      intro env
      simp [execute, hd]
  | @addAssign k _ _ hk | @assignAdd k _ _ _ _ hk =>
      exact ⟨fun env => k.value ev env, fun _ => rfl, fun _ _ => value_eq_of_isFreeOf hk ev⟩
  | @subAssign k _ _ hk | @assignSub k _ _ _ _ hk =>
      refine ⟨fun env => -k.value ev env, ?_, ?_⟩
      · intro env
        simp [execute, value, AssignOp.binary?, Evaluation.apply, Int.sub_eq_add_neg]
      · intro env env' henv
        exact congrArg Neg.neg (value_eq_of_isFreeOf hk ev henv)
  | @assignAddTo k _ _ _ _ hk =>
      refine ⟨fun env => k.value ev env, ?_, fun _ _ => value_eq_of_isFreeOf hk ev⟩
      intro env
      simp [execute, value, AssignOp.binary?, Evaluation.apply, Int.add_comm]

end Expr

/-- **The induction variable moves by an amount that does not depend on it.**  Whatever
expressions mean, executing the update of a well-formed header adds to the induction
variable, and changes nothing else; environments that differ only at that
variable see the same amount.  Behind it stands a fact about all expressions: the value of one that
does not mention a variable is the same whatever that variable's value is. -/
theorem shape_steps_by_amount :
    (∀ (t : Interner) (h : LoopHeader) (v : Name), h.shape t = .ok v → ∀ ev : Evaluation,
      ∃ update, h.update = some update ∧ ∃ d : Env → Int,
        (∀ env, update.execute ev env = some (Function.update env v (env v + d env))) ∧
          ∀ env env', (∀ n ≠ v, env n = env' n) → d env = d env') ∧
    ∀ (ev : Evaluation) (e : Expr) (v : Name), e.mentions v = false →
      ∀ env env' : Env, (∀ n ≠ v, env n = env' n) → e.value ev env = e.value ev env' := by
  constructor
  · intro t h v hok ev
    obtain ⟨-, -, update, hupdate, hstep⟩ := (h.shape_eq_ok_iff t v).mp hok
    exact ⟨update, hupdate, hstep.execute_eq ev⟩
  · intro ev e v he env env' henv
    exact Expr.value_eq_of_isFreeOf ((e.mentions_eq_false_iff v).mp he) ev henv

/-- Everything but `+`, `-`, `*` and integer literals means zero. -/
def Evaluation.products : Evaluation where
  int n := n
  float _ := 0
  char _ := 0
  string _ := 0
  unary _ _ := 0
  binary
    | .mul, a, b => a * b
    | _, _, _ => 0
  assign _ _ _ := 0
  call _ _ := 0
  index _ _ := 0
  member _ _ _ := 0
  cast _ _ := 0
  ternary _ _ _ := 0
  comma _ := 0
  sizeOfType _ := 0

/-- Twice the variable with number `n`. -/
def Expr.twice (n : Nat) : Expr :=
  .binary .mul (.int 2 ⟨40, 41⟩) (.ident ⟨n⟩ ⟨44, 45⟩) ⟨40, 45⟩

/-- `for (int i = 0; i < n; i = 2 * n + i)`, where `i` and `n` have the numbers 16 and 17. -/
def LoopHeader.scaledSample : LoopHeader where
  init := some (.decl
    ⟨{ base := .int }, [⟨⟨16⟩, [], some (.int 0 ⟨17, 18⟩), ⟨13, 18⟩⟩], [], ⟨9, 18⟩⟩)
  test := some (.binary .lt (.ident ⟨16⟩ ⟨20, 21⟩) (.ident ⟨17⟩ ⟨24, 25⟩) ⟨20, 25⟩)
  update := some (.assign .assign (.ident ⟨16⟩ ⟨36, 37⟩)
    (.binary .add (.twice 17) (.ident ⟨16⟩ ⟨48, 49⟩) ⟨40, 49⟩) ⟨36, 49⟩)
  markers := []
  span := ⟨0, 52⟩

/-- The update of a loop by a product adds that product, and the product does not depend on the
variable. -/
theorem shape_steps_by_amount_scaledSample :
    LoopHeader.scaledSample.shape .initial = .ok ⟨16⟩ ∧
    (∃ update, LoopHeader.scaledSample.update = some update ∧ ∃ d : Env → Int,
      (∀ env, update.execute .products env =
        some (Function.update env ⟨16⟩ (env ⟨16⟩ + d env))) ∧
          ∀ env env', (∀ n ≠ ⟨16⟩, env n = env' n) → d env = d env') ∧
    (Expr.twice 17).mentions ⟨16⟩ = false ∧
    ∀ env env' : Env, (∀ n ≠ ⟨16⟩, env n = env' n) →
      (Expr.twice 17).value .products env = (Expr.twice 17).value .products env' := by
  have hok : LoopHeader.scaledSample.shape .initial = .ok ⟨16⟩ := rfl
  have hfree : (Expr.twice 17).mentions ⟨16⟩ = false := rfl
  exact ⟨hok, shape_steps_by_amount.1 _ _ _ hok _, hfree, shape_steps_by_amount.2 _ _ _ hfree⟩

/-- With 5 in `i` and 3 in `n`, the update leaves 11 in `i`. -/
example :
    (LoopHeader.scaledSample.update.bind (·.execute .products fun name =>
      if name = ⟨16⟩ then 5 else 3)).map (· ⟨16⟩) = some 11 := by
  decide

end KernelCheck
