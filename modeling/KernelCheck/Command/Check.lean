import KernelCheck.Command.Options
import KernelCheck.Diagnostic.Records
import KernelCheck.Verdict

/-!
# Checking a module

From a loaded module to the text that a check writes.  No custom marker is known
to a check, so all of them are reported.
-/

namespace KernelCheck

/-- A report and the text that tells it. -/
structure CheckResult where
  report : Report
  output : String

/-- Diagnostics for people: each one, and a closing line. -/
def terminalOutput (options : CheckOptions) (source : Option Source) (isTerminal : Bool)
    (ds : List Diagnostic) : String :=
  let terminal : Terminal := { colored := options.color.usesColor isTerminal, source }
  let (errors, warnings) := Diagnostic.counts ds
  (((Printer.start terminal).emitAll ds).close errors warnings).written

/-- Diagnostics for tools: one document. -/
def jsonOutput (source : Option Source) (ds : List Diagnostic) : String :=
  ((RecordBuffer.empty source).addAll ds).finish.1

/-- Checks every kernel of a module and tells what was found.  `isTerminal` says
where the text goes. -/
def CheckOptions.check (options : CheckOptions) (m : Module) (names : Interner)
    (source : Option Source) (isTerminal : Bool) : CheckResult :=
  let report := m.report names .empty options.extent
  let ds := report.diagnostics names
  let output :=
    match options.format with
    | .terminal => terminalOutput options source isTerminal ds
    | .json => jsonOutput source ds
  { report, output }

end KernelCheck
