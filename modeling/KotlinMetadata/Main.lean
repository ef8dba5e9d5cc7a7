import KotlinMetadata.CommandLine.Run

/-!
# The program

Reads the files that the arguments ask for, and carries out the plan made of
them.
-/

namespace KotlinMetadata.CommandLine

/-- The text of a file, if it can be read. -/
def readText (path : String) : IO (Option String) :=
  try some <$> IO.FS.readFile path catch _ => pure none

/-- Prints a report and gives its exit code. -/
def Report.emit (report : Report) : IO UInt32 := do
  IO.print report.out
  IO.eprint report.err
  return report.code.toUInt32

/-- Carries out a plan and gives the exit code. -/
def Plan.carryOut : Plan → IO UInt32
  | .print report => report.emit
  | .write path content written failed => do
      let report ←
        try
          IO.FS.writeFile path content
          pure written
        catch _ => pure failed
      report.emit

end KotlinMetadata.CommandLine

open KotlinMetadata.CommandLine in
/-- The program. -/
def main (arguments : List String) : IO UInt32 := do
  let paths := ((Request.ofArguments? arguments).map Request.paths).getD []
  let texts ← paths.mapM fun path => do return (path, ← readText path)
  let terminal : Terminal := {
    noColor := (← IO.getEnv "NO_COLOR").isSome
    kind? := ← IO.getEnv "TERM" }
  (plan terminal (fun path => (texts.lookup path).join) arguments).carryOut
