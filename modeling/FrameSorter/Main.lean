import FrameSorter.CommandLine

/-!
# The program

Builds a pack from the disk onto the disk. The process ends with 0 if there is a pack, with 1 if the
run ended without one, and with 2 if the command line was wrong.
-/

set_option autoImplicit false
set_option relaxedAutoImplicit false

namespace FrameSorter

/-- Runs an action and keeps its failure as a value. -/
def attempt {α : Type} (action : IO α) : IO (Except IoFailure α) := do
  try
    return .ok (← action)
  catch
    | .noFileOrDirectory .. => return .error .notFound
    | failure => return .error (.other (toString failure))

/-- The disk of the machine. -/
def machineDisk : Disk IO where
  isPresent path := do return ← ((← IO.currentDir) / path.text).pathExists
  isDirectory path := do return ← ((← IO.currentDir) / path.text).isDir
  readText path := attempt (IO.FS.readFile path.text)
  store root path content := attempt do
    let target := (root.join path).text
    if let some above := (root.join path).ancestors.tail.head? then
      IO.FS.createDirAll above.text
    IO.FS.writeFile target content

/-- How the program is used. -/
def usage : String :=
  "usage: framesorter CONFIG [--out-dir OUT_DIR] [--check] [--strict]"

/-- What a run reports at its end. -/
def summaryLine (summary : PackSummary) : String :=
  toString summary.stats.totalItems ++ " items in " ++ toString summary.stats.totalGroups ++
    " groups, " ++ toString summary.errors ++ " errors, " ++ toString summary.warnings ++ " warnings"

end FrameSorter

/-- Runs the program on the words of the command line. -/
def main (words : List String) : IO UInt32 := do
  match FrameSorter.CommandLine.Arguments.ofWords words with
  | .error .helpRequested =>
    IO.println FrameSorter.usage
    return 0
  | .error _ =>
    IO.eprintln FrameSorter.usage
    return 2
  | .ok arguments =>
    match ← FrameSorter.CommandLine.run FrameSorter.machineDisk arguments with
    | .error error =>
      IO.eprintln (error.message "the text is malformed")
      return 1
    | .ok summary =>
      IO.println (FrameSorter.summaryLine summary)
      return 0
