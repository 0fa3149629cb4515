/-!
# Artifacts

The functions that make up a pack, each with its name, its role and its text.
-/

set_option autoImplicit false
set_option relaxedAutoImplicit false

namespace FrameSorter

/-- What a function is for. -/
inductive ArtifactKind
  | dispatcher
  | group
  | item
  | lifecycle
  deriving DecidableEq, Repr

/-- A function of the pack. -/
structure Artifact where
  name : String
  kind : ArtifactKind
  content : String
  deriving DecidableEq, Repr

end FrameSorter
