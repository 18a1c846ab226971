import Ascription.CommandLine

/-!
# Main — the program

Reads the files that the arguments name, runs the command, and prints what it gives.  Colours are
for terminals; `NO_COLOR` turns them off everywhere and `FORCE_COLOR` turns them on.
-/

open Ascription

/-- Why a file cannot be read. -/
def refusal : IO.Error → String
  | .noFileOrDirectory _ _ _ => "No such file or directory (os error 2)"
  | e => toString e

/-- The text of a file, or why it cannot be read. -/
def readText (path : String) : IO (String × Except String String) := do
  try
    return (path, .ok (← IO.FS.readFile path))
  catch e =>
    return (path, .error (refusal e))

def main (args : List String) : IO UInt32 := do
  let noColour := (← IO.getEnv "NO_COLOR").isSome
  let forceColour := (← IO.getEnv "FORCE_COLOR").isSome
  let terminal ← (← IO.getStdout).isTty
  let colours := !noColour && (forceColour || terminal)
  let texts ← (CommandLine.neededFiles args).mapM readText
  let files : Files := fun path => (texts.lookup path).getD (.error "not read")
  let output := CommandLine.run colours files args
  IO.print output.stdout
  IO.eprint output.stderr
  return output.code.toUInt32
