import KernelCheck.Proofs.Distinct

/-!
# One family of rules after the other

All families of rules write to one list of findings.  If all problems are wanted, that
list is no way for one family to talk to another: a family adds to it what it would have
found alone, and what it adds has codes of its own.

* `Code.leadingDigit_eq` — the first digit of a code tells its family.
* `Stage.exists_own_problems` — each family finds one list of problems, whatever was
  found before, and all of them are of that family.
* `Stage.runAll_eq` — families in any order, some of them repeated or left out, add
  their lists in that order.
* `families_in_order` — the problems of a kernel, family by family.
-/

namespace KernelCheck

/-! ## Codes -/

/-- The digit that stands for a family in the codes of its rules. -/
def Family.digit : Family → Nat
  | .markers => 1
  | .headers => 2
  | .nesting => 3
  | .storage => 4
  | .jumps => 5
  | .internal => 9

/-- The first of the four digits of a code. -/
def Code.leadingDigit (c : Code) : Nat := c.number / 1000

/-- The written form of a code shows its first digit behind the `E`. -/
theorem Code.take_text (c : Code) : c.text.toList.take 2 = ['E', c.leadingDigit.digitChar] := by
  cases c <;> decide +kernel

/-- The first digit of a code is that of its family. -/
theorem Code.leadingDigit_eq (c : Code) : c.leadingDigit = c.family.digit := by
  cases c <;> rfl

namespace Stage

/-- Each family of rules with what it is called. -/
def families : List (Stage × Family) := Stage.all.zip Family.all

/-- Later families have larger digits. -/
theorem pairwise_families : families.Pairwise fun x y => x.2.digit ≤ y.2.digit := by
  have hdigits : (families.map fun x => x.2.digit).Pairwise (· ≤ ·) := by decide
  exact List.pairwise_map.mp hdigits

/-- A list of problems is told to be of a family by the codes in it. -/
theorem family_eq_of_once {codes : List Code} {spans : List Span} {ps : List Problem}
    {family : Family} (h : Once codes spans ps) (hcodes : ∀ c ∈ codes, c.family = family) :
    ∀ p ∈ ps, p.code.family = family :=
  fun p hp => hcodes p.code (h.code p hp)

/-- **A family of rules finds problems of its own**, and finds the same whatever was found
before. -/
theorem exists_own_problems (s : Subject) {x : Stage × Family} (hx : x ∈ families) :
    ∃ ps, x.1.Finds s ps ∧ ∀ p ∈ ps, p.code.family = x.2 := by
  simp only [families, Stage.all, Family.all, List.zip_cons_cons, List.zip_nil_left,
    List.mem_cons, List.not_mem_nil, or_false] at hx
  rcases hx with rfl | rfl | rfl | rfl | rfl
  · exact ⟨_, markers_finds s, family_eq_of_once s.once_markerProblems (by decide)⟩
  · exact ⟨_, headers_finds s, family_eq_of_once s.once_headerProblems (by decide)⟩
  · exact ⟨_, nesting_finds s, family_eq_of_once s.once_nestingProblems (by decide)⟩
  · exact ⟨_, storage_finds s, family_eq_of_once s.kernel.once_storageProblems (by decide)⟩
  · exact ⟨_, jumps_finds s, family_eq_of_once s.once_jumpProblems (by decide)⟩

/-- What a family of rules finds in a kernel on its own. -/
def alone (stage : Stage) (s : Subject) : List Problem := (stage s (.empty .all)).problems

/-- A family of rules adds what it finds on its own. -/
theorem Finds.append {stage : Stage} {s : Subject} {ps : List Problem} (h : stage.Finds s ps)
    (found : List Problem) : stage s ⟨.all, found⟩ = ⟨.all, found ++ stage.alone s⟩ := by
  rw [alone, h.all_eq, h, Findings.pushAll_all]

/-- Some families of rules in turn. -/
def runAll (stages : List Stage) (s : Subject) (f : Findings) : Findings :=
  stages.foldl (fun f stage => stage s f) f

/-- Families in any order add what each of them finds on its own.  The induction is on the
families; a family that has run leaves nothing but its problems to those that follow. -/
theorem runAll_eq {stages : List Stage} (s : Subject)
    (hstages : ∀ stage ∈ stages, stage ∈ Stage.all) (found : List Problem) :
    runAll stages s ⟨.all, found⟩ = ⟨.all, found ++ stages.flatMap (·.alone s)⟩ := by
  induction stages generalizing found with
  | nil => simp [runAll]
  | cons stage rest ih =>
      obtain ⟨ps, hfinds⟩ := exists_finds (hstages stage List.mem_cons_self) s
      have hrest := ih (fun other hother => hstages other (List.mem_cons_of_mem _ hother))
        (found ++ stage.alone s)
      rw [runAll, List.foldl_cons, hfinds.append, ← runAll, hrest, List.flatMap_cons,
        List.append_assoc]

end Stage

/-- The problems of a kernel are those that each family finds on its own. -/
theorem Subject.problems_eq_flatMap (s : Subject) :
    s.problems = Stage.families.flatMap (·.1.alone s) := by
  simp only [Stage.families, Stage.all, Family.all, List.zip_cons_cons, List.zip_nil_left,
    List.flatMap_cons, List.flatMap_nil, Stage.alone, (Stage.markers_finds s).all_eq,
    (Stage.headers_finds s).all_eq, (Stage.nesting_finds s).all_eq, (Stage.storage_finds s).all_eq,
    (Stage.jumps_finds s).all_eq, Subject.problems, List.append_nil]

/-- **Families of rules are independent, and they come in order.**  If all problems are
wanted, each family adds to what was found before what it finds on its own, and all of
that has a code of the family.  So the problems of a kernel are those of the five
families one after the other, the first digit of their codes never decreases, and
families that are run in another order, twice or not at all make no difference to
what the others find. -/
theorem families_in_order (s : Subject) :
    (∀ x ∈ Stage.families,
      (∀ found, x.1 s ⟨.all, found⟩ = ⟨.all, found ++ x.1.alone s⟩) ∧
        ∀ p ∈ x.1.alone s, p.code.family = x.2 ∧ p.code.leadingDigit = x.2.digit) ∧
    (s.kernel.verdict s.names s.registry .all).problems = Stage.all.flatMap (·.alone s) ∧
    ((s.kernel.verdict s.names s.registry .all).problems.map (·.code.leadingDigit)).Pairwise
      (· ≤ ·) ∧
    ∀ stages : List Stage, (∀ stage ∈ stages, stage ∈ Stage.all) → ∀ found,
      Stage.runAll stages s ⟨.all, found⟩ = ⟨.all, found ++ stages.flatMap (·.alone s)⟩ := by
  have hown : ∀ x ∈ Stage.families, ∀ p ∈ x.1.alone s,
      p.code.family = x.2 ∧ p.code.leadingDigit = x.2.digit := by
    intro x hx p hp
    obtain ⟨ps, hfinds, hfamily⟩ := Stage.exists_own_problems s hx
    rw [Stage.alone, hfinds.all_eq] at hp
    have hcode := hfamily p hp
    exact ⟨hcode, by rw [Code.leadingDigit_eq, hcode]⟩
  refine ⟨?_, ?_, ?_, fun stages hstages => Stage.runAll_eq s hstages⟩
  · intro x hx
    obtain ⟨ps, hfinds, -⟩ := Stage.exists_own_problems s hx
    exact ⟨hfinds.append, hown x hx⟩
  · rw [Function.problems_verdict_all, Subject.problems_eq_flatMap]
    rfl
  · rw [Function.problems_verdict_all, Subject.problems_eq_flatMap, List.pairwise_map,
      List.pairwise_flatMap]
    constructor
    · intro x hx
      apply List.pairwise_of_forall_mem_list
      intro p hp q hq
      rw [(hown x hx p hp).2, (hown x hx q hq).2]
    · refine List.Pairwise.imp_of_mem ?_ Stage.pairwise_families
      intro x y hx hy hdigit p hp q hq
      rw [(hown x hx p hp).2, (hown y hy q hq).2]
      exact hdigit

/-- A kernel that is marked `@shared` as well, with an exclusive variable in front of its
only loop, which has no header and is left at once. -/
def Function.brokenSample : Function :=
  let place (n : Nat) : Span := ⟨n, n + 1⟩
  let counter : Declaration :=
    ⟨{ base := .int }, [⟨⟨2⟩, [], none, place 3⟩], [⟨.exclusive, place 4⟩], place 5⟩
  let groups : LoopHeader := ⟨none, none, none, [⟨.outer, place 6⟩], place 7⟩
  ⟨⟨1⟩, [], { base := .void },
    ⟨[.decl counter (place 5), .forLoop groups (.breakJump (place 8)) (place 7)], place 9⟩,
    [⟨.kernel, place 1⟩, ⟨.shared, place 2⟩], place 10⟩

/-- One problem of each family.  The rules on headers find theirs behind that of the rules
on markers, and again if they are run behind those on jumps. -/
theorem families_in_order_brokenSample :
    let s : Subject := ⟨.brokenSample, .initial, .empty⟩
    let unknown : Problem := .unknownAttribute ⟨2, 3⟩ .shared .function
    let headerless : Problem := .badInduction ⟨7, 8⟩ ⟨7, 8⟩ .missingInit
    let escape : Problem := .illegalBreak ⟨8, 9⟩ ⟨7, 8⟩ .outer
    (Stage.headers, Family.headers) ∈ Stage.families ∧
      Stage.headers s ⟨.all, [unknown]⟩ = ⟨.all, [unknown, headerless]⟩ ∧
      (s.kernel.verdict s.names s.registry .all).problems =
        [unknown, headerless, .missingLoops ⟨10, 11⟩ ⟨1⟩ .inner,
          .exclusiveOutsideOuter ⟨5, 6⟩ ⟨2⟩, escape] ∧
      Stage.runAll [Stage.jumps, Stage.headers] s ⟨.all, []⟩ = ⟨.all, [escape, headerless]⟩ := by
  intro s unknown headerless escape
  have hmem : (Stage.headers, Family.headers) ∈ Stage.families :=
    List.mem_cons_of_mem _ List.mem_cons_self
  have hstages : ∀ stage ∈ [Stage.jumps, Stage.headers], stage ∈ Stage.all := by
    simp [Stage.all]
  have halone : Stage.headers.alone s = [headerless] := by decide
  have hjumps : Stage.jumps.alone s = [escape] := by decide
  refine ⟨hmem, ?_, by decide, ?_⟩
  · have happend := ((families_in_order s).1 _ hmem).1 [unknown]
    rw [halone] at happend
    exact happend
  · rw [(families_in_order s).2.2.2 _ hstages, List.flatMap_cons, List.flatMap_singleton, halone,
      hjumps]
    rfl

end KernelCheck
