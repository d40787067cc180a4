/-
# The program

Reads files from the disk, and writes the report of a run: its output to standard output, a complaint
to standard error.

Key definitions: `disk`, `main`.
-/
import PageQuery.Command.Basic

namespace PageQuery

/-- The text of a file, if it can be read. -/
def readFile? (path : String) : IO (Option String) := do
  try return some (← IO.FS.readFile path) catch _ => return none

/-- Whether a path leads to a file, whatever it holds. -/
def fileExists (path : String) : IO Bool := do
  try
    let _ ← IO.FS.readBinFile path
    return true
  catch _ => return false

/-- The disk and the home directory. -/
def disk : IO (Surroundings IO) := return ⟨readFile?, fileExists, ← IO.getEnv "HOME"⟩

end PageQuery

def main (args : List String) : IO UInt32 := do
  let report ← PageQuery.runCommandLine (← PageQuery.disk) args
  (← IO.getStdout).putStr report.output
  match report.complaint? with
  | some text => (← IO.getStderr).putStrLn text
  | none => pure ()
  return report.code.toUInt32
