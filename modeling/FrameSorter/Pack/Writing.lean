import FrameSorter.Compilation
import FrameSorter.Lifecycle
import FrameSorter.Pack.Layout
import FrameSorter.Sink

/-!
# Writing a pack

The files of a pack are one fixed list (`Pack.files`): the compiled functions with the dispatcher
first, the lifecycle functions, the two tags and the description. `Pack.write` offers them to a sink
in this order and stops at the first refusal, which it reports with the path that was refused.
-/

set_option autoImplicit false
set_option relaxedAutoImplicit false

namespace FrameSorter

/-- What a written pack consists of. -/
structure PackSummary where
  filesWritten : Nat
  stats : CompilationStats
  errors : Nat
  warnings : Nat
  deriving DecidableEq, Repr

/-- The file that a sink refused, and why. -/
structure WriteFailure where
  path : Path
  cause : IoFailure
  deriving DecidableEq, Repr

/-- The wording of a refused write. -/
def WriteFailure.message (failure : WriteFailure) : String :=
  "failed to write " ++ failure.path.text ++ ": " ++ failure.cause.message

namespace Pack

/-- The functions of a pack, with the lifecycle functions at the end. -/
def functions (compilation : Compilation) (options : PackOptions) : List Artifact :=
  compilation.artifacts ++ lifecycleArtifacts options

/-- The tags of a pack: the game runs the one function when it loads the pack, and the other every
tick. -/
def tags (options : PackOptions) : List (String × List String) :=
  [("load", [resourceLocation options.packNamespace initArtifactName]),
   ("tick", [resourceLocation options.packNamespace tickArtifactName])]

/-- All files of a pack, in the order in which they are written. -/
def files (compilation : Compilation) (options : PackOptions) : List (Path × String) :=
  ((functions compilation options).map fun artifact ↦
      (functionPath options artifact.name, artifact.content)) ++
    ((tags options).map fun (tag, listed) ↦ (tagPath options tag, tagDocument listed)) ++
    [(metadataPath, metadataDocument options)]

variable {m : Type → Type} [Monad m]

/-- Writes files one after the other until the sink refuses one. -/
def writeFiles (sink : Sink m) : List (Path × String) → m (Except WriteFailure Unit)
  | [] => return .ok ()
  | (path, content) :: rest => do
    match ← sink.write path content with
    | .error cause => return .error { path, cause }
    | .ok () => writeFiles sink rest

/-- Writes a pack and counts what was written and what was wrong with the configuration. -/
def write (compilation : Compilation) (options : PackOptions) (sink : Sink m) :
    m (Except WriteFailure PackSummary) := do
  match ← writeFiles sink (files compilation options) with
  | .error failure => return .error failure
  | .ok () =>
    return .ok
      { filesWritten := (files compilation options).length
        stats := compilation.stats
        errors := compilation.errors.length
        warnings := compilation.warnings.length }

end Pack

end FrameSorter
