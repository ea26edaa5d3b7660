import Refute.CommandLine

/-!
# The program

Reads the problem file named by the arguments, or the standard input, and prints the report.
-/

namespace Refute

/-- Reads the problem that the options name. -/
def readProblem (options : Options) : IO String := do
  match options.file with
  | some file => IO.FS.readFile file
  | none => (← IO.getStdin).readToEnd

/-- Prints a report and gives its exit code. -/
def printReport (report : Report) : IO UInt32 := do
  (← IO.getStdout).putStr (Report.text report.output)
  (← IO.getStderr).putStr (Report.text report.errors)
  return report.code.toUInt32

end Refute

/-- Runs the program on its arguments. -/
def main (arguments : List String) : IO UInt32 := do
  match Refute.Options.parse arguments with
  | .error cause => Refute.printReport (Refute.Report.failure cause.message)
  | .ok options =>
    try
      let text ← Refute.readProblem options
      Refute.printReport (Refute.Report.run Refute.Interrupt.never options text)
    catch error =>
      Refute.printReport (Refute.Report.failure ("Input error: " ++ error.toString))
