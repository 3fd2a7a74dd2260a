import TensorLang.CommandLine

/-!
# The command

Reads the source file, answers the arguments and passes the answer on.
-/

open TensorLang

/-- The path among the arguments, if they are in order. -/
def sourcePath? (arguments : List String) : Option String :=
  (CommandLine.read? .none arguments).bind CommandLine.Arguments.path

/-- What a path leads to. -/
def readInput (path : String) : IO CommandLine.Input := do
  try
    return .file (← IO.FS.readFile path)
  catch _ =>
    return .unusable

/-- Runs the command. -/
def main (arguments : List String) : IO UInt32 := do
  let input ←
    match sourcePath? arguments with
    | some path => readInput path
    | none => pure .unusable
  let output ← IO.getStdout
  let settings : CommandLine.ColourSettings :=
    { forced := ← IO.getEnv "CLICOLOR_FORCE"
      refused := ← IO.getEnv "NO_COLOR"
      allowed := ← IO.getEnv "CLICOLOR"
      onTerminal := ← output.isTty }
  let response := CommandLine.respond arguments (fun _ => input) settings.ink
  IO.eprint response.diagnostics
  IO.print response.output
  return response.exitCode.toUInt32
