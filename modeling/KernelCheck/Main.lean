import KernelCheck.Command.Program

/-!
# The program

Reads files, runs the program on its arguments and writes what it answers.
-/

namespace KernelCheck

/-- The cause of a failure to read. -/
def readErrorOf : IO.Error → ReadError
  | .noFileOrDirectory .. => .notFound
  | .inappropriateType _ code details =>
    if code = 21 then .isDirectory else .other s!"{details} (os error {code})"
  | e => .other (toString e)

/-- The text of a file. -/
def readText (path : String) : IO (Except ReadError String) := do
  if path.isEmpty then return .error .notFound
  try
    let bytes ← IO.FS.readBinFile path
    match String.fromUTF8? bytes with
    | some text => return .ok text
    | none => return .error .notUtf8
  catch e => return .error (readErrorOf e)

end KernelCheck

open KernelCheck in
/-- Runs the program and hands its answer to the streams. -/
def main (arguments : List String) : IO UInt32 := do
  let isTerminal ← (← IO.getStderr).isTty
  let outcome ← Program.run readText isTerminal arguments
  IO.print outcome.stdout
  IO.eprint outcome.stderr
  return outcome.status.toUInt32
