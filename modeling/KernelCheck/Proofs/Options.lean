import KernelCheck.Command.Options
import Mathlib.Data.List.Perm.Basic

/-!
# Options by their occurrences

Arguments are read from left to right, and reading stops at the first one that cannot be
accepted.  What comes out can be said without an order of reading: which arguments there are, and
which occurrence of an option is its last.

1. `CheckOptions.step_eq_ok_iff` — a step adds an argument to a draft if the draft accepts it,
   and it always has the same effect.
2. `CheckOptions.Reads` — what several arguments make of a draft.
3. `CheckOptions.reads_of_foldlM` and `CheckOptions.exists_foldlM` — a run of steps comes to
   that, and it ends if the arguments are understood and name one path at most.
4. `CheckOptions.parse_eq_ok_iff` — the options that arguments give.

`options_by_occurrence` says when there are options, which ones, and what a change of the order
does to them.
-/

namespace KernelCheck

namespace CheckOptions

/-! ## Arguments -/

/-- The argument does not start with a dash. -/
def isPath (argument : String) : Bool := argument.toList.head? != some '-'

/-- The arguments with a dash that are understood. -/
def IsOption (argument : String) : Prop :=
  argument ∈ ["--all", "--no-parallel", "--format=terminal", "--format=json", "--color=auto",
    "--color=always", "--color=never"] ∨
  ∃ file, argument = "--source=" ++ file

/-- The format that an argument asks for. -/
def formatOf? (argument : String) : Option OutputFormat :=
  (valueAfter? "--format=" argument).bind OutputFormat.ofText?

/-- The colour mode that an argument asks for. -/
def colorOf? (argument : String) : Option ColorMode :=
  (valueAfter? "--color=" argument).bind ColorMode.ofText?

/-- The source that an argument names. -/
def sourceOf? (argument : String) : Option String := valueAfter? "--source=" argument

/-- What the last of the arguments says that says something. -/
def lastOf? {α : Type} (read? : String → Option α) (arguments : List String) : Option α :=
  (arguments.filterMap read?).getLast?

variable {argument lead value : String}

/-- What follows a word is found behind it. -/
theorem valueAfter?_append (lead value : String) :
    valueAfter? lead (lead ++ value) = some value := by
  rw [valueAfter?, String.toList_append, if_pos (List.isPrefixOf_iff_prefix.mpr (by simp)),
    ← String.length_toList, List.drop_left, String.ofList_toList]

/-- What is found behind a word follows it. -/
theorem eq_append_of_valueAfter? (h : valueAfter? lead argument = some value) :
    argument = lead ++ value := by
  unfold valueAfter? at h
  split at h
  case isTrue hlead =>
    obtain ⟨rest, hrest⟩ := List.isPrefixOf_iff_prefix.mp hlead
    rw [← hrest, ← String.length_toList, List.drop_left, Option.some_inj] at h
    rw [String.ext_iff, String.toList_append, ← hrest, ← h, String.toList_ofList]
  case isFalse => cases h

/-- What starts with a dash is no path. -/
theorem isPath_append (hlead : lead.toList.head? = some '-') (value : String) :
    isPath (lead ++ value) = false := by
  rw [isPath, String.toList_append, List.head?_append, hlead]
  rfl

/-- An argument with a dash in front is no path. -/
theorem isPath_eq_false_of_valueAfter? (hlead : lead.toList.head? = some '-')
    (h : (valueAfter? lead argument).isSome) : isPath argument = false := by
  obtain ⟨value, hvalue⟩ := Option.isSome_iff_exists.mp h
  rw [eq_append_of_valueAfter? hvalue, isPath_append hlead]

/-- A path has no word with a dash in front. -/
theorem valueAfter?_of_isPath (hlead : lead.toList.head? = some '-')
    (h : isPath argument = true) : valueAfter? lead argument = none := by
  rw [← Option.not_isSome_iff_eq_none]
  intro hsome
  rw [isPath_eq_false_of_valueAfter? hlead hsome] at h
  cases h

/-- An argument without a dash in front is a path. -/
theorem isPath_of_valueAfter?_dash (h : ¬ (valueAfter? "-" argument).isSome) :
    isPath argument = true := by
  rw [isPath, bne_iff_ne]
  intro hdash
  obtain ⟨rest, hrest⟩ := List.head?_eq_some_iff.mp hdash
  simp [valueAfter?, hrest] at h

namespace Argument

/-- An argument and its form. -/
inductive Forms : String → Argument → Prop
  | all : Forms "--all" .all
  | noParallel : Forms "--no-parallel" .noParallel
  | format (value : String) : Forms ("--format=" ++ value) (.format value)
  | source (value : String) : Forms ("--source=" ++ value) (.source value)
  | color (value : String) : Forms ("--color=" ++ value) (.color value)
  | unknown {argument : String} : isPath argument = false → Forms argument .unknown
  | path {argument : String} : isPath argument = true → Forms argument .path

/-- The form of an argument says what it looks like. -/
theorem forms_ofText (argument : String) : Forms argument (ofText argument) := by
  unfold ofText
  split
  case isTrue h => exact h ▸ .all
  case isFalse =>
    split
    case isTrue h => exact h ▸ .noParallel
    case isFalse =>
      split
      case h_1 h => exact eq_append_of_valueAfter? h ▸ .format _
      case h_2 _ h => exact eq_append_of_valueAfter? h ▸ .source _
      case h_3 h => exact eq_append_of_valueAfter? h ▸ .color _
      case h_4 =>
        split
        case isTrue h => exact .unknown (isPath_eq_false_of_valueAfter? rfl h)
        case isFalse h => exact .path (isPath_of_valueAfter?_dash h)

/-- An argument with a source file is read as one, whatever the file is called. -/
theorem ofText_source (file : String) : ofText ("--source=" ++ file) = .source file := by
  have hformat : valueAfter? "--format=" ("--source=" ++ file) = none := by simp [valueAfter?]
  have hall : "--source=" ++ file ≠ "--all" := by simp [String.ext_iff]
  have hnoParallel : "--source=" ++ file ≠ "--no-parallel" := by simp [String.ext_iff]
  rw [ofText, if_neg hall, if_neg hnoParallel, hformat, valueAfter?_append]

/-- A path is read as one. -/
theorem ofText_of_isPath (h : isPath argument = true) : ofText argument = .path := by
  have hforms := forms_ofText argument
  generalize ofText argument = form at hforms
  cases hforms with
  | path => rfl
  | unknown hdash => rw [hdash] at h; cases h
  | all | noParallel => cases h
  | format value | source value | color value => rw [isPath_append rfl value] at h; cases h

end Argument

/-! ## One argument -/

/-- What one argument makes of a draft that it is added to. -/
def Draft.after (d : Draft) (argument : String) : Draft where
  path := if isPath argument then some argument else d.path
  extent := if argument = "--all" then .all else d.extent
  parallel := if argument = "--no-parallel" then false else d.parallel
  format := (formatOf? argument).getD d.format
  color := (colorOf? argument).getD d.color
  source := (sourceOf? argument).or d.source

/-- The argument can be added: it is the first path, or an option that is understood. -/
def Draft.Accepts (d : Draft) (argument : String) : Prop :=
  if isPath argument then d.path = none else IsOption argument

variable {d d' : Draft}

/-- A path is noted as the path. -/
theorem Draft.after_of_isPath (h : isPath argument = true) :
    d.after argument = { d with path := some argument } := by
  have hne : ∀ word, isPath word = false → argument ≠ word := by
    rintro word hword rfl
    rw [hword] at h
    cases h
  have hvalue : ∀ lead : String, lead.toList.head? = some '-' →
      valueAfter? lead argument = none :=
    fun _ hlead => valueAfter?_of_isPath hlead h
  simp [after, h, formatOf?, colorOf?, sourceOf?, hne "--all" rfl, hne "--no-parallel" rfl,
    hvalue "--format=" rfl, hvalue "--color=" rfl, hvalue "--source=" rfl]

/-- An option with a value changes what it is for, and nothing else. -/
theorem Draft.after_append (hlead : lead ∈ ["--format=", "--source=", "--color="])
    (value : String) :
    d.after (lead ++ value) = { d with
      format := if lead = "--format=" then (OutputFormat.ofText? value).getD d.format else d.format
      color := if lead = "--color=" then (ColorMode.ofText? value).getD d.color else d.color
      source := if lead = "--source=" then some value else d.source } := by
  simp only [List.mem_cons, List.not_mem_nil, or_false] at hlead
  simp only [after, formatOf?, colorOf?, sourceOf?]
  rcases hlead with rfl | rfl | rfl
  all_goals
    simp only [valueAfter?_append]
    simp [isPath, valueAfter?, String.ext_iff]

/-- A format is understood if it has a name. -/
theorem isOption_format {format : OutputFormat} (h : OutputFormat.ofText? value = some format) :
    IsOption ("--format=" ++ value) := by
  unfold OutputFormat.ofText? at h
  split at h
  · exact .inl (by decide)
  · exact .inl (by decide)
  · cases h

/-- A colour mode is understood if it has a name. -/
theorem isOption_color {color : ColorMode} (h : ColorMode.ofText? value = some color) :
    IsOption ("--color=" ++ value) := by
  unfold ColorMode.ofText? at h
  split at h
  · exact .inl (by decide)
  · exact .inl (by decide)
  · exact .inl (by decide)
  · cases h

/-- A word that is an option is accepted at any point. -/
theorem Draft.Accepts.of_word {word : String} (h : isPath word = false) (hword : IsOption word) :
    d.Accepts word := by
  rw [Accepts, h]
  exact hword

/-- An argument that is taken is one that can be added, and it has its effect.  The cases are the
forms of an argument. -/
theorem accepts_of_step (h : d.step argument = .ok d') :
    d.Accepts argument ∧ d' = d.after argument := by
  have hforms := Argument.forms_ofText argument
  unfold Draft.step at h
  generalize Argument.ofText argument = form at h hforms
  cases hforms with
  | all =>
      cases h
      exact ⟨.of_word rfl (.inl (by decide)), rfl⟩
  | noParallel =>
      cases h
      exact ⟨.of_word rfl (.inl (by decide)), rfl⟩
  | source file =>
      cases h
      exact ⟨.of_word (isPath_append rfl file) (.inr ⟨file, rfl⟩), by simp [Draft.after_append]⟩
  | format value =>
      dsimp only at h
      cases hformat : OutputFormat.ofText? value with
      | none => rw [hformat] at h; cases h
      | some format =>
          rw [hformat] at h
          cases h
          exact ⟨.of_word (isPath_append rfl value) (isOption_format hformat),
            by simp [Draft.after_append, hformat]⟩
  | color value =>
      dsimp only at h
      cases hcolor : ColorMode.ofText? value with
      | none => rw [hcolor] at h; cases h
      | some color =>
          rw [hcolor] at h
          cases h
          exact ⟨.of_word (isPath_append rfl value) (isOption_color hcolor),
            by simp [Draft.after_append, hcolor]⟩
  | unknown => cases h
  | path hpath =>
      cases hnone : d.path with
      | some path => rw [hnone] at h; cases h
      | none =>
          rw [hnone] at h
          cases h
          refine ⟨?_, (Draft.after_of_isPath hpath).symm⟩
          rwa [Draft.Accepts, if_pos hpath]

/-- What is accepted can be read. -/
theorem exists_step (h : d.Accepts argument) : ∃ d', d.step argument = .ok d' := by
  by_cases hpath : isPath argument = true
  · rw [Draft.Accepts, if_pos hpath] at h
    rw [Draft.step, Argument.ofText_of_isPath hpath, h]
    exact ⟨_, rfl⟩
  · rw [Draft.Accepts, if_neg hpath] at h
    rcases h with hword | ⟨file, rfl⟩
    · simp only [List.mem_cons, List.not_mem_nil, or_false] at hword
      rcases hword with rfl | rfl | rfl | rfl | rfl | rfl | rfl <;> exact ⟨_, rfl⟩
    · rw [Draft.step, Argument.ofText_source]
      exact ⟨_, rfl⟩

/-- **A step.**  An argument is added if it can be, and then it has its effect. -/
theorem step_eq_ok_iff : d.step argument = .ok d' ↔ d.Accepts argument ∧ d' = d.after argument := by
  refine ⟨accepts_of_step, ?_⟩
  rintro ⟨haccepts, rfl⟩
  obtain ⟨d', hstep⟩ := exists_step haccepts
  rw [hstep, (accepts_of_step hstep).2]

/-! ## Several arguments -/

/-- What several arguments make of a draft that they can be added to. -/
structure Reads (d : Draft) (arguments : List String) (d' : Draft) : Prop where
  known : ∀ argument ∈ arguments, isPath argument = false → IsOption argument
  path : d'.path.toList = d.path.toList ++ arguments.filter isPath
  extent : d'.extent = if "--all" ∈ arguments then .all else d.extent
  parallel : d'.parallel = if "--no-parallel" ∈ arguments then false else d.parallel
  format : d'.format = (lastOf? formatOf? arguments).getD d.format
  color : d'.color = (lastOf? colorOf? arguments).getD d.color
  source : d'.source = (lastOf? sourceOf? arguments).or d.source

/-- What an argument says counts if nothing behind it says something else. -/
theorem lastOf?_cons {α : Type} (read? : String → Option α) (argument : String)
    (rest : List String) :
    lastOf? read? (argument :: rest) = (lastOf? read? rest).or (read? argument) := by
  have hone : [argument].filterMap read? = (read? argument).toList := by
    rw [List.filterMap_cons]
    cases read? argument <;> rfl
  rw [lastOf?, ← List.singleton_append, List.filterMap_append, List.getLast?_append, hone]
  cases read? argument <;> rfl

/-- The first path is put into the draft. -/
theorem path_after (h : d.Accepts argument) :
    (d.after argument).path.toList = d.path.toList ++ [argument].filter isPath := by
  rw [Draft.after, List.filter_singleton]
  by_cases hpath : isPath argument = true
  · rw [Draft.Accepts, if_pos hpath] at h
    simp [hpath, h]
  · simp [hpath]

/-- No arguments leave everything as it was. -/
theorem Reads.nil (d : Draft) : Reads d [] d := by
  constructor <;> simp [lastOf?]

/-- One argument in front of others that are read behind it. -/
theorem Reads.cons {rest : List String} (haccepts : d.Accepts argument)
    (h : Reads (d.after argument) rest d') : Reads d (argument :: rest) d' where
  known := by
    refine List.forall_mem_cons.mpr ⟨fun hpath => ?_, h.known⟩
    rwa [Draft.Accepts, if_neg (by simp [hpath])] at haccepts
  path := by
    rw [h.path, path_after haccepts, List.append_assoc, ← List.filter_append]
    rfl
  extent := by
    rw [h.extent, Draft.after]
    by_cases hall : "--all" ∈ rest <;> simp [hall, eq_comm]
  parallel := by
    rw [h.parallel, Draft.after]
    by_cases hword : "--no-parallel" ∈ rest <;> simp [hword, eq_comm]
  format := by rw [h.format, Draft.after, lastOf?_cons, Option.getD_or]
  color := by rw [h.color, Draft.after, lastOf?_cons, Option.getD_or]
  source := by rw [h.source, Draft.after, lastOf?_cons, Option.or_assoc]

/-- **A run of steps** has the effect of its arguments. -/
theorem reads_of_foldlM {arguments : List String} (h : arguments.foldlM Draft.step d = .ok d') :
    Reads d arguments d' := by
  induction arguments generalizing d with
  | nil => cases h; exact .nil _
  | cons argument rest ih =>
      rw [List.foldlM_cons] at h
      cases hstep : d.step argument with
      | error e => rw [hstep] at h; cases h
      | ok between =>
          rw [hstep] at h
          obtain ⟨haccepts, rfl⟩ := accepts_of_step hstep
          exact .cons haccepts (ih h)

/-- **A run gets to its end** if all arguments with a dash are understood and there is one path at
most, the one in the draft included. -/
theorem exists_foldlM {d : Draft} {arguments : List String}
    (hknown : ∀ argument ∈ arguments, isPath argument = false → IsOption argument)
    (hpath : (d.path.toList ++ arguments.filter isPath).length ≤ 1) :
    ∃ d', arguments.foldlM Draft.step d = .ok d' := by
  induction arguments generalizing d with
  | nil => exact ⟨d, rfl⟩
  | cons argument rest ih =>
      obtain ⟨hargument, hrest⟩ := List.forall_mem_cons.mp hknown
      have haccepts : d.Accepts argument := by
        unfold Draft.Accepts
        split
        case isTrue h =>
          rw [List.filter_cons_of_pos h] at hpath
          cases hnone : d.path with
          | none => rfl
          | some path => simp [hnone] at hpath
        case isFalse h => exact hargument (by simpa using h)
      have hone : ((d.after argument).path.toList ++ rest.filter isPath).length ≤ 1 := by
        rw [path_after haccepts, List.append_assoc, ← List.filter_append]
        exact hpath
      obtain ⟨d', hrun⟩ := ih hrest hone
      refine ⟨d', ?_⟩
      rw [List.foldlM_cons, step_eq_ok_iff.mpr ⟨haccepts, rfl⟩]
      exact hrun

/-! ## Options -/

/-- The options that arguments give: the one path, whether a word occurs, and what the last
occurrence of an option says, or else the default. -/
structure GivenBy (arguments : List String) (options : CheckOptions) : Prop where
  path : arguments.filter isPath = [options.path]
  extent : options.extent = if "--all" ∈ arguments then .all else .first
  parallel : options.parallel = if "--no-parallel" ∈ arguments then false else true
  format : options.format = (lastOf? formatOf? arguments).getD .terminal
  color : options.color = (lastOf? colorOf? arguments).getD .auto
  source : options.source = lastOf? sourceOf? arguments

namespace GivenBy

variable {arguments : List String} {options options' : CheckOptions}

/-- Arguments give no other options. -/
theorem unique (h : GivenBy arguments options) (h' : GivenBy arguments options') :
    options' = options := by
  obtain ⟨path, extent, parallel, format, color, source⟩ := options
  obtain ⟨path', extent', parallel', format', color', source'⟩ := options'
  obtain rfl : path' = path := List.singleton_inj.mp (h'.path.symm.trans h.path)
  obtain rfl : extent' = extent := h'.extent.trans h.extent.symm
  obtain rfl : parallel' = parallel := h'.parallel.trans h.parallel.symm
  obtain rfl : format' = format := h'.format.trans h.format.symm
  obtain rfl : color' = color := h'.color.trans h.color.symm
  obtain rfl : source' = source := h'.source.trans h.source.symm
  rfl

end GivenBy

/-- **What is read** consists of known options, and each setting is the last one given. -/
theorem givenBy_of_parse {arguments : List String} {options : CheckOptions}
    (h : parse arguments = .ok options) :
    (∀ argument ∈ arguments, isPath argument = false → IsOption argument) ∧
      GivenBy arguments options := by
  unfold parse at h
  cases hrun : arguments.foldlM Draft.step .start with
  | error e => rw [hrun] at h; cases h
  | ok d =>
      have hreads := reads_of_foldlM hrun
      rw [hrun] at h
      change d.finish = .ok options at h
      unfold Draft.finish at h
      cases hpath : d.path with
      | none => rw [hpath] at h; cases h
      | some path =>
          rw [hpath] at h
          cases h
          have hone : [path] = arguments.filter isPath := by
            have hlist := hreads.path
            rwa [hpath] at hlist
          exact ⟨hreads.known, hone.symm, hreads.extent, hreads.parallel, hreads.format,
            hreads.color, hreads.source.trans Option.or_none⟩

/-- **Known options and one path** can be read, in any order. -/
theorem exists_parse {arguments : List String} {path : String}
    (hknown : ∀ argument ∈ arguments, isPath argument = false → IsOption argument)
    (hpath : arguments.filter isPath = [path]) : ∃ options, parse arguments = .ok options := by
  have hone : (Draft.start.path.toList ++ arguments.filter isPath).length ≤ 1 := by
    rw [hpath]
    exact Nat.le_refl 1
  obtain ⟨d, hrun⟩ := exists_foldlM hknown hone
  have hfound : d.path = some path := by
    have hlist := (reads_of_foldlM hrun).path
    rw [hpath] at hlist
    exact Option.toList_eq_singleton_iff.mp hlist
  unfold parse
  rw [hrun]
  change ∃ options, d.finish = .ok options
  rw [Draft.finish, hfound]
  exact ⟨_, rfl⟩

/-- **Reading by occurrences.**  Arguments give options if all of those with a dash are
understood, and there is one path. -/
theorem parse_eq_ok_iff {arguments : List String} {options : CheckOptions} :
    parse arguments = .ok options ↔
      (∀ argument ∈ arguments, isPath argument = false → IsOption argument) ∧
        GivenBy arguments options := by
  refine ⟨givenBy_of_parse, ?_⟩
  rintro ⟨hknown, hgiven⟩
  obtain ⟨options', hparse⟩ := exists_parse hknown hgiven.path
  rw [hparse, hgiven.unique (givenBy_of_parse hparse).2]

/-- In another order the arguments name the same path, and the same words occur. -/
theorem exists_parse_of_perm {arguments arguments' : List String} {options : CheckOptions}
    (hperm : arguments.Perm arguments') (h : parse arguments = .ok options) :
    ∃ options', parse arguments' = .ok options' ∧ options'.path = options.path ∧
      options'.extent = options.extent ∧ options'.parallel = options.parallel := by
  obtain ⟨hknown, hgiven⟩ := parse_eq_ok_iff.mp h
  have hpath : arguments'.filter isPath = [options.path] := by
    have hfilter := hperm.filter isPath
    rw [hgiven.path] at hfilter
    exact (List.singleton_perm.mp hfilter).symm
  obtain ⟨options', hparse⟩ :=
    exists_parse (fun argument hmem => hknown argument (hperm.mem_iff.mpr hmem)) hpath
  obtain ⟨-, hgiven'⟩ := parse_eq_ok_iff.mp hparse
  refine ⟨options', hparse, ?_, ?_, ?_⟩
  · exact List.singleton_inj.mp (hgiven'.path.symm.trans hpath)
  · rw [hgiven'.extent, hgiven.extent]
    simp only [hperm.mem_iff]
  · rw [hgiven'.parallel, hgiven.parallel]
    simp only [hperm.mem_iff]

end CheckOptions

open CheckOptions in
/-- **Options by the occurrences of arguments.**  There are options just if one argument does not
start with a dash and each of the others is understood.  The path is that argument, words count if
they occur, and of an option that is given more than once the last occurrence counts.  So in
another order there are options as well, and one of them can be another only if occurrences of it
have changed places. -/
theorem options_by_occurrence (arguments : List String) :
    ((∃ options, parse arguments = .ok options) ↔
        (∃ path, arguments.filter isPath = [path]) ∧
          ∀ argument ∈ arguments, isPath argument = false → IsOption argument) ∧
      (∀ options, parse arguments = .ok options → GivenBy arguments options) ∧
      ∀ arguments' options, arguments.Perm arguments' → parse arguments = .ok options →
        ∃ options', parse arguments' = .ok options' ∧ options'.path = options.path ∧
          options'.extent = options.extent ∧ options'.parallel = options.parallel ∧
          (arguments'.filterMap formatOf? = arguments.filterMap formatOf? →
            options'.format = options.format) ∧
          (arguments'.filterMap colorOf? = arguments.filterMap colorOf? →
            options'.color = options.color) ∧
          (arguments'.filterMap sourceOf? = arguments.filterMap sourceOf? →
            options'.source = options.source) := by
  refine ⟨⟨?_, ?_⟩, fun options h => (parse_eq_ok_iff.mp h).2, ?_⟩
  · rintro ⟨options, h⟩
    obtain ⟨hknown, hgiven⟩ := parse_eq_ok_iff.mp h
    exact ⟨⟨options.path, hgiven.path⟩, hknown⟩
  · rintro ⟨⟨path, hpath⟩, hknown⟩
    exact exists_parse hknown hpath
  · intro arguments' options hperm h
    obtain ⟨options', h', hpath, hextent, hparallel⟩ := exists_parse_of_perm hperm h
    have hgiven := (parse_eq_ok_iff.mp h).2
    have hgiven' := (parse_eq_ok_iff.mp h').2
    refine ⟨options', h', hpath, hextent, hparallel, ?_, ?_, ?_⟩
    · intro hsame
      rw [hgiven'.format, hgiven.format, lastOf?, lastOf?, hsame]
    · intro hsame
      rw [hgiven'.color, hgiven.color, lastOf?, lastOf?, hsame]
    · intro hsame
      rw [hgiven'.source, hgiven.source, lastOf?, lastOf?, hsame]

/-- The path and a word change places with the formats, of which the last one still counts. -/
theorem options_by_occurrence_sample :
    let arguments := ["--format=json", "kernel.json", "--all", "--format=terminal"]
    let arguments' := ["--all", "--format=json", "--format=terminal", "kernel.json"]
    arguments.Perm arguments' ∧
      ∃ options, CheckOptions.parse arguments = .ok options ∧
        ∃ options', CheckOptions.parse arguments' = .ok options' ∧
          options'.path = "kernel.json" ∧ options'.extent = .all ∧
          options'.format = .terminal := by
  intro arguments arguments'
  have hperm : arguments.Perm arguments' := by decide
  have hknown : ∀ argument ∈ arguments, CheckOptions.isPath argument = false →
      CheckOptions.IsOption argument := by
    intro argument hmem hpath
    simp only [arguments, List.mem_cons, List.not_mem_nil, or_false] at hmem
    rcases hmem with rfl | rfl | rfl | rfl
    · exact .inl (by decide)
    · exact absurd hpath (by decide)
    · exact .inl (by decide)
    · exact .inl (by decide)
  obtain ⟨hexists, hgiven, horder⟩ := options_by_occurrence arguments
  obtain ⟨options, h⟩ := hexists.mpr ⟨⟨"kernel.json", by decide⟩, hknown⟩
  obtain ⟨options', h', hpath, hextent, -, hformat, -⟩ := horder arguments' options hperm h
  refine ⟨hperm, options, h, options', h', hpath.trans ?_, hextent.trans ?_, (hformat ?_).trans ?_⟩
  · exact (List.singleton_inj.mp ((hgiven options h).path.symm.trans (by decide)))
  · exact (hgiven options h).extent.trans (by decide)
  · decide
  · exact (hgiven options h).format.trans (by decide)

end KernelCheck
