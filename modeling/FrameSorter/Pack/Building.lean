import FrameSorter.Loading
import FrameSorter.Pack.Writing

/-!
# Building a pack

`Pack.build` loads a configuration, compiles it and writes the pack, and what was compiled comes with
the summary of the pack. It fails if the configuration cannot be loaded, and then nothing is written, or
if the sink refuses a file (`PackError`). What the configuration itself has wrong is counted and does not
keep the pack from being written.
-/

set_option autoImplicit false
set_option relaxedAutoImplicit false

namespace FrameSorter

/-- Why no pack was built. -/
inductive PackError
  | configUnavailable (cause : LoadError)
  | persistenceFailure (failure : WriteFailure)
  deriving DecidableEq, Repr

/-- The wording of an error. -/
def PackError.message (detail : String) : PackError → String
  | .configUnavailable cause => "configuration unavailable: " ++ cause.message detail
  | .persistenceFailure failure => failure.message

namespace Pack

variable {m : Type → Type} [Monad m]

/-- Compiles a configuration and writes the pack. -/
def compileAndWrite (config : Configuration) (sink : Sink m) :
    m (Except PackError (Compilation × PackSummary)) := do
  let compilation := compile config
  match ← write compilation config.pack sink with
  | .error failure => return .error (.persistenceFailure failure)
  | .ok summary => return .ok (compilation, summary)

/-- Loads the configuration at a path, compiles it and writes the pack. -/
def build (disk : Disk m) (path : Path) (sink : Sink m) :
    m (Except PackError (Compilation × PackSummary)) := do
  match ← loadConfig disk path with
  | .error cause => return .error (.configUnavailable cause)
  | .ok config => compileAndWrite config sink

end Pack

end FrameSorter
