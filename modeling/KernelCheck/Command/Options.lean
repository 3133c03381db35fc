import KernelCheck.Diagnostic.Terminal
import KernelCheck.Rule.Findings

/-!
# Options of a check

The arguments of a check are one path and any number of options, in any order.
Of an option that is given more than once the last one counts.

* `CheckOptions.parse` reads arguments from left to right and stops at the first
  one that it cannot accept; that a path is missing shows only at the end.
-/

namespace KernelCheck

/-- How diagnostics are written. -/
inductive OutputFormat where
  /-- For people. -/
  | terminal
  /-- For tools, as a JSON array. -/
  | json
  deriving DecidableEq

/-- The format with a given name. -/
def OutputFormat.ofText? : String → Option OutputFormat
  | "terminal" => some terminal
  | "json" => some json
  | _ => none

/-- What a check is to do. -/
structure CheckOptions where
  /-- The serialized module. -/
  path : String
  /-- How many problems of each kernel are wanted. -/
  extent : Extent
  /-- Kernels may be checked at the same time; the answer is the same. -/
  parallel : Bool
  format : OutputFormat
  color : ColorMode
  /-- The kernel source, for lines and columns. -/
  source : Option String
  deriving DecidableEq

/-- Why arguments are not accepted. -/
inductive UsageError where
  | unknownOption (argument : String)
  | unexpectedArgument (argument : String)
  | missingPath
  | badFormat (value : String)
  | badColor (value : String)
  deriving DecidableEq

/-- The error in words. -/
def UsageError.message : UsageError → String
  | unknownOption argument => s!"unknown option `{argument}`"
  | unexpectedArgument argument => s!"unexpected argument `{argument}`"
  | missingPath => "missing AST file"
  | badFormat value => s!"invalid output format `{value}` (expected terminal or json)"
  | badColor value => s!"invalid color mode `{value}` (expected auto, always or never)"

namespace CheckOptions

/-- The options read so far; the path may still be to come. -/
structure Draft where
  path : Option String
  extent : Extent
  parallel : Bool
  format : OutputFormat
  color : ColorMode
  source : Option String
  deriving DecidableEq

/-- What holds before any argument. -/
def Draft.start : Draft :=
  { path := none, extent := .first, parallel := true, format := .terminal, color := .auto,
    source := none }

/-- What follows `lead` in an argument that starts with it. -/
def valueAfter? (lead argument : String) : Option String :=
  if lead.toList.isPrefixOf argument.toList then
    some (String.ofList (argument.toList.drop lead.length))
  else none

/-- An argument by its form. -/
inductive Argument where
  | all
  | noParallel
  | format (value : String)
  | source (value : String)
  | color (value : String)
  /-- It starts with a dash and is none of these. -/
  | unknown
  | path
  deriving DecidableEq

/-- The form of an argument. -/
def Argument.ofText (argument : String) : Argument :=
  if argument = "--all" then all
  else if argument = "--no-parallel" then noParallel
  else
    match valueAfter? "--format=" argument, valueAfter? "--source=" argument,
        valueAfter? "--color=" argument with
    | some value, _, _ => format value
    | none, some value, _ => source value
    | none, none, some value => color value
    | none, none, none => if (valueAfter? "-" argument).isSome then unknown else path

/-- One more argument. -/
def Draft.step (d : Draft) (argument : String) : Except UsageError Draft :=
  match Argument.ofText argument with
  | .all => .ok { d with extent := .all }
  | .noParallel => .ok { d with parallel := false }
  | .format value =>
    match OutputFormat.ofText? value with
    | some format => .ok { d with format }
    | none => .error (.badFormat value)
  | .source value => .ok { d with source := some value }
  | .color value =>
    match ColorMode.ofText? value with
    | some color => .ok { d with color }
    | none => .error (.badColor value)
  | .unknown => .error (.unknownOption argument)
  | .path =>
    match d.path with
    | none => .ok { d with path := some argument }
    | some _ => .error (.unexpectedArgument argument)

/-- The options once all arguments are read. -/
def Draft.finish (d : Draft) : Except UsageError CheckOptions :=
  match d.path with
  | none => .error .missingPath
  | some path =>
    .ok { path, extent := d.extent, parallel := d.parallel, format := d.format, color := d.color,
          source := d.source }

/-- The options that the arguments give. -/
def parse (arguments : List String) : Except UsageError CheckOptions := do
  let d ← arguments.foldlM Draft.step .start
  d.finish

end CheckOptions

end KernelCheck
