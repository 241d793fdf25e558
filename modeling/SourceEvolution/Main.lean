import SourceEvolution.Command.Run

/-!
# The program

Reads the files that the command line names, runs the command, and prints or saves what comes out.
-/

namespace SourceEvolution

/-- The contents of a file; none if it cannot be read. -/
def readContents (file : String) : IO (Option ByteArray) := do
  try
    return some (← IO.FS.readBinFile file)
  catch _ =>
    return none

/-- Saves a text in a file, and tells whether that worked. -/
def saveText (file text : String) : IO Bool := do
  try
    IO.FS.writeFile file text
    return true
  catch _ =>
    return false

/-- Carries out an outcome; gives the code to end with. -/
def carryOut (outcome : Outcome) : IO UInt32 := do
  IO.print outcome.printed
  match outcome.saved? with
  | none => return outcome.exitCode
  | some (file, text) => return if ← saveText file text then outcome.exitCode else Outcome.failure

end SourceEvolution

open SourceEvolution in
/-- Runs the program. -/
def main (arguments : List String) : IO UInt32 := do
  let files := ((Invocation.parse? arguments).map Invocation.filesRead).getD []
  let contents ← files.mapM fun file => do return (file, ← readContents file)
  carryOut (runCommandLine (fun file => (contents.lookup file).join) arguments)
