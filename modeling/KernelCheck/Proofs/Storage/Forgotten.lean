import KernelCheck.Proofs.Storage.Lexical

/-!
# What forgotten values owe

The rules forget the values that a variable gets inside a loop whose init
expression assigns it.  Without those values fewer variables change, so at most
the problems with dimensions are missed, and a dimension whose leftmost changing
variable changes all the same is judged as before.

* `Lexical.loopVariant_mono` — fewer events, fewer variables that change.
* `Lexical.problems_remembered_iff` — the problems are the same exactly if no
  dimension owes its problem to a forgotten value.
-/

namespace KernelCheck.Lexical

/-! ## Fewer events -/

/-- A variable changes at a point if a loop around it iterates over the variable, or
if the variable changes wherever it is visible. -/
theorem loopVariant_eq_or (past : List Event) (view : View) (v : Variable) :
    loopVariant past view v = (view.iterates v || loopVariant past [] v) := by
  induction past with
  | nil => exact (Bool.or_false _).symm
  | cons ev past ih =>
      cases ev with
      | gets w value here =>
          simp only [loopVariant]
          rw [ih, Bool.or_left_comm]
      | declares | sizes => exact ih

/-- Fewer events make fewer variables change. -/
theorem loopVariant_mono {past past' : List Event} (h : past'.Sublist past) {view : View}
    {v : Variable} (hv : loopVariant past' view v = true) : loopVariant past view v = true := by
  induction h generalizing view v with
  | slnil => exact hv
  | cons ev _ ih =>
      cases ev with
      | gets => exact Bool.or_eq_true_iff.mpr (.inr (ih hv))
      | declares | sizes => exact ih hv
  | cons_cons ev _ ih =>
      cases ev with
      | gets w value here =>
          rcases Bool.or_eq_true_iff.mp hv with hgets | hv
          · obtain ⟨hw, hvalue⟩ := Bool.and_eq_true_iff.mp hgets
            obtain ⟨o, ho, hchanges⟩ := List.any_eq_true.mp hvalue
            exact Bool.or_eq_true_iff.mpr
              (.inl (Bool.and_eq_true_iff.mpr ⟨hw, List.any_eq_true.mpr ⟨o, ho, ih hchanges⟩⟩))
          · exact Bool.or_eq_true_iff.mpr (.inr (ih hv))
      | declares | sizes => exact ih hv

/-- What changes without the forgotten values changes. -/
theorem loopVariant_of_remembered {past : List Event} {view : View} {v : Variable}
    (h : loopVariant (remembered past) view v = true) : loopVariant past view v = true :=
  loopVariant_mono List.filter_sublist h

/-- A search with a narrower test finds the same if it accepts what is found. -/
theorem find?_eq_find?_iff {α : Type} {p q : α → Bool} (h : ∀ a, p a = true → q a = true)
    (xs : List α) : xs.find? p = xs.find? q ↔ ∀ a, xs.find? q = some a → p a = true := by
  constructor
  · intro heq a ha
    exact List.find?_some (heq.trans ha)
  · intro hfound
    induction xs with
    | nil => rfl
    | cons x rest ih =>
        by_cases hq : q x = true
        · rw [List.find?_cons_of_pos hq] at hfound ⊢
          exact List.find?_cons_of_pos (hfound x rfl)
        · rw [List.find?_cons_of_neg hq] at hfound ⊢
          rw [List.find?_cons_of_neg (mt (h x) hq)]
          exact ih hfound

/-- A dimension is judged as before exactly if its leftmost changing variable changes
without the forgotten values as well. -/
theorem sizeProblem?_remembered_iff (past : List Event) (array : Name) (dim : Expr) (view : View) :
    sizeProblem? (remembered past) array dim view = sizeProblem? past array dim view ↔
      ∀ o, firstVariant? past view dim = some o →
        loopVariant (remembered past) view (view.resolve o.1) = true := by
  have hinj : Function.Injective fun o : Name × Span =>
      Problem.variantBound dim.span array o.1 o.2 := by
    rintro ⟨n, s⟩ ⟨n', s'⟩ heq
    obtain ⟨-, -, rfl, rfl⟩ := Problem.variantBound.inj heq
    rfl
  rw [sizeProblem?, sizeProblem?, (Option.map_injective hinj).eq_iff]
  exact find?_eq_find?_iff (fun _ h => loopVariant_of_remembered h) dim.occurrences

/-! ## What is missed -/

/-- A forgotten value is no problem itself. -/
theorem problem?_of_isForgotten {ev : Event} (h : ev.isForgotten = true) (past : List Event) :
    ev.problem? past = none := by
  cases ev with
  | gets => rfl
  | declares | sizes => cases h

/-- The problems without the forgotten values, event by event. -/
theorem problems_remembered_cons (ev : Event) (past : List Event) :
    problems (remembered (ev :: past)) =
      problems (remembered past) ++ (ev.problem? (remembered past)).toList := by
  cases hev : ev.isForgotten with
  | true => simp [remembered, hev, problem?_of_isForgotten hev]
  | false => simp [remembered, hev, problems]

/-- Without the forgotten values an event has no further problem. -/
theorem length_problem?_remembered_le (ev : Event) (past : List Event) :
    (ev.problem? (remembered past)).toList.length ≤ (ev.problem? past).toList.length := by
  cases ev with
  | gets | declares => exact Nat.le_refl _
  | sizes array dim view =>
      simp only [Event.problem?, sizeProblem?, firstVariant?]
      cases hfound : dim.occurrences.find? fun o =>
          loopVariant (remembered past) view (view.resolve o.1) with
      | none => exact Nat.zero_le _
      | some o =>
          have hchanges : loopVariant (remembered past) view (view.resolve o.1) = true := by
            simpa using List.find?_some hfound
          have hsome : (dim.occurrences.find? fun o =>
              loopVariant past view (view.resolve o.1)).isSome = true :=
            List.find?_isSome.mpr
              ⟨o, List.mem_of_find?_eq_some hfound, loopVariant_of_remembered hchanges⟩
          obtain ⟨o', ho'⟩ := Option.isSome_iff_exists.mp hsome
          rw [ho']
          exact Nat.le_refl _

/-- There are no further problems without the forgotten values. -/
theorem length_problems_remembered_le (past : List Event) :
    (problems (remembered past)).length ≤ (problems past).length := by
  induction past with
  | nil => exact Nat.le_refl _
  | cons ev past ih =>
      rw [problems_remembered_cons, problems, List.length_append, List.length_append]
      exact Nat.add_le_add ih (length_problem?_remembered_le ev past)

/-- Nothing is owed if the last event is judged as before and nothing was owed. -/
theorem owesNothing_cons (ev : Event) (past : List Event) :
    OwesNothing (ev :: past) ↔
      ev.problem? (remembered past) = ev.problem? past ∧ OwesNothing past := by
  cases ev with
  | gets | declares => exact (and_iff_right rfl).symm
  | sizes array dim view =>
      exact and_congr_left' (sizeProblem?_remembered_iff past array dim view).symm

/-- **What is forgotten** is missed exactly by the dimensions that owe it their
problem. -/
theorem problems_remembered_iff (past : List Event) :
    problems (remembered past) = problems past ↔ OwesNothing past := by
  induction past with
  | nil => exact iff_of_true rfl trivial
  | cons ev past ih =>
      rw [problems_remembered_cons, problems, owesNothing_cons, ← ih, and_comm]
      constructor
      · intro heq
        have hlength := congrArg List.length heq
        rw [List.length_append, List.length_append] at hlength
        have hpast := length_problems_remembered_le past
        have hev := length_problem?_remembered_le ev past
        obtain ⟨hproblems, hproblem⟩ := List.append_inj heq (by omega)
        have hhead := congrArg List.head? hproblem
        rw [Option.head?_toList, Option.head?_toList] at hhead
        exact ⟨hproblems, hhead⟩
      · rintro ⟨hproblems, hproblem⟩
        rw [hproblems, hproblem]

/-- If no value is forgotten, all events are remembered. -/
theorem remembered_eq_self {past : List Event} (h : ∀ ev ∈ past, ev.isForgotten = false) :
    remembered past = past :=
  List.filter_eq_self.mpr fun ev hev => by rw [h ev hev]; rfl

end KernelCheck.Lexical
