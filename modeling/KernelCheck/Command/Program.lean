import KernelCheck.Command.Check
import KernelCheck.Command.Explain
import KernelCheck.Document.Load

/-!
# The command line

What the program does with its arguments, apart from reading files and writing
texts: `run` is given a way to read a file and answers with an exit status and
the texts for both streams.

The exit status is 0 if all went well, 1 if some kernel is rejected, and 2 if the
arguments or the files are not in order.
-/

namespace KernelCheck

/-- Why a file cannot be read as text. -/
inductive ReadError where
  | notFound
  | isDirectory
  | notUtf8
  | other (reason : String)
  deriving DecidableEq

/-- The error in words. -/
def ReadError.message : ReadError → String
  | notFound => "No such file or directory (os error 2)"
  | isDirectory => "Is a directory (os error 21)"
  | notUtf8 => "stream did not contain valid UTF-8"
  | other reason => reason

/-- What a run of the program leaves behind. -/
structure Outcome where
  status : Nat
  stdout : String
  stderr : String
  deriving DecidableEq

namespace Program

/-- Every kernel passed, or there was nothing to check. -/
def statusOk : Nat := 0

/-- Some kernel is rejected. -/
def statusRejected : Nat := 1

/-- The arguments or the files are not in order. -/
def statusUsage : Nat := 2

/-- The version of the program. -/
def version : String := "0.1.0-alpha.8"

/-- Lines of text, each with its line end. -/
def lines (ls : List String) : String := String.join (ls.map (· ++ "\n"))

/-- What the program can do. -/
def usage : String := lines [
  "OKL kernel validator",
  "",
  "Usage: oklc <command> [options]",
  "",
  "Commands:",
  "  check <ast.json>     Validate every @kernel in a parsed AST",
  "  explain <code>       Explain an error code (e.g., E3003)",
  "  help                 Show this help message",
  "  version              Show version information",
  "",
  "Exit status: 0 if every kernel passes, 1 if one is rejected, 2 on usage errors.",
  "Set RUST_LOG=debug to trace validation stages."]

/-- The options of a check. -/
def checkUsage : String := lines [
  "Usage: oklc check <ast.json> [options]",
  "",
  "Options:",
  "  --all                    Report every problem, not just the first per kernel",
  "  --format=<fmt>           Output format: terminal (default), json",
  "  --source=<kernel.okl>    Kernel source, for line numbers and snippets",
  "  --color=<when>           Colors: auto (default), always, never",
  "  --no-parallel            Check kernels on one thread"]

/-- How to ask for an explanation. -/
def explainUsage : String := lines [
  "Usage: oklc explain <ERROR_CODE>",
  "Example: oklc explain E3003"]

/-- A failure that is told in one line. -/
def failure (message : String) : Outcome := ⟨statusUsage, "", s!"error: {message}\n"⟩

/-- A file that cannot be read. -/
def unreadable (path : String) (e : ReadError) : Outcome :=
  failure s!"cannot read `{path}`: {e.message}"

/-- What a check of a loaded module leaves behind.  Diagnostics for people go to
the error stream, and that a module passes is said on the other one. -/
def checkOutcome (options : CheckOptions) (m : Module) (names : Interner)
    (source : Option Source) (isTerminal : Bool) : Outcome :=
  match options.format with
  | .json =>
    let result := options.check m names source false
    ⟨if result.report.passed then statusOk else statusRejected, result.output, ""⟩
  | .terminal =>
    let result := options.check m names source isTerminal
    if result.report.passed then
      let n := result.report.verdicts.length
      ⟨statusOk, s!"OK: {options.path} ({n} kernels)\n", result.output⟩
    else ⟨statusRejected, "", result.output⟩

section Run

variable {m : Type → Type} [Monad m]

/-- The kernel source that the options ask for. -/
def readSource (read : String → m (Except ReadError String)) (path : Option String) :
    m (Except Outcome (Option Source)) := do
  match path with
  | none => return .ok none
  | some path =>
    match ← read path with
    | .error e => return .error (unreadable path e)
    | .ok text => return .ok (some (Source.ofText path text))

/-- Checks a file.  The module is loaded before the source is read. -/
def check (read : String → m (Except ReadError String)) (isTerminal : Bool)
    (options : CheckOptions) : m Outcome := do
  match ← read options.path with
  | .error e => return unreadable options.path e
  | .ok text =>
    match (Module.parse text options.path).run .initial with
    | .error e => return failure e.message
    | .ok (module, names) =>
      match ← readSource read options.source with
      | .error outcome => return outcome
      | .ok source => return checkOutcome options module names source isTerminal

/-- Explains a code. -/
def explainOutcome (code : String) : Outcome :=
  match explain code with
  | .ok page => ⟨statusOk, page ++ "\n", ""⟩
  | .error e => failure e.message

/-- Runs the program.  `isTerminal` says whether somebody watches the error
stream. -/
def run (read : String → m (Except ReadError String)) (isTerminal : Bool)
    (arguments : List String) : m Outcome := do
  match arguments with
  | [] => return ⟨statusUsage, usage, ""⟩
  | command :: rest =>
    match command with
    | "check" =>
      match CheckOptions.parse rest with
      | .ok options => check read isTerminal options
      | .error e => return ⟨statusUsage, "", s!"error: {e.message}\n\n" ++ checkUsage⟩
    | "explain" | "--explain" =>
      match rest with
      | [] => return ⟨statusUsage, "", explainUsage⟩
      | code :: _ => return explainOutcome code
    | "help" | "--help" | "-h" => return ⟨statusOk, usage, ""⟩
    | "version" | "--version" | "-V" => return ⟨statusOk, s!"oklc {version}\n", ""⟩
    | _ => return ⟨statusUsage, usage, s!"Unknown command: {command}\n\n"⟩

end Run

end Program

end KernelCheck
