import FrameSorter.FileSystem

/-!
# Sinks

A sink takes the files of a pack, one write at a time, and may refuse one (`Sink`). There are two. The
memory sink keeps an entry for each path in the order of the first writes; a later write to the same
path changes the content and nothing else (`MemorySink.write`). A directory of a file system takes
files below it, and the directories that they need are created first (`FileSystem.store`).
`Sink.limited` is a sink that has room for a number of writes only.
-/

set_option autoImplicit false
set_option relaxedAutoImplicit false

namespace FrameSorter

/-- A place that takes files. A write acts in `m`, whether it succeeds or not. -/
structure Sink (m : Type → Type) where
  write : Path → String → m (Except IoFailure Unit)

/-! ### In memory -/

/-- The written files, in the order of the first writes. -/
structure MemorySink where
  entries : List (Path × String) := []
  deriving DecidableEq, Repr

namespace MemorySink

/-- Sets the content of the first entry whose path has the same components, or adds an entry at the
end. -/
def writeEntries (path : Path) (content : String) : List (Path × String) → List (Path × String)
  | [] => [(path, content)]
  | (known, old) :: rest =>
    if known.components = path.components then (known, content) :: rest
    else (known, old) :: writeEntries path content rest

/-- Takes a file. -/
def write (memory : MemorySink) (path : Path) (content : String) : MemorySink :=
  { entries := writeEntries path content memory.entries }

/-- The content of the file that was written to a path. -/
def get? (memory : MemorySink) (path : Path) : Option String :=
  (memory.entries.find? (·.1.components == path.components)).map (·.2)

/-- The paths, each as it was first written. -/
def paths (memory : MemorySink) : List Path :=
  memory.entries.map (·.1)

/-- The number of files. -/
def size (memory : MemorySink) : Nat :=
  memory.entries.length

/-- Whether nothing was written. -/
def isEmpty (memory : MemorySink) : Bool :=
  memory.entries.isEmpty

/-- The sink that never refuses a write. -/
def sink : Sink (StateM MemorySink) where
  write path content := do
    modify (·.write path content)
    return .ok ()

end MemorySink

/-! ### On disk -/

/-- Writes the content of `path` below `root`, after creating the directories above it. -/
def FileSystem.store (files : FileSystem) (root path : Path) (content : String) :
    Except IoFailure Unit × FileSystem :=
  let target := root.join path
  match files.makeDirectories target.ancestors.tail with
  | (.error failure, made) => (.error failure, made)
  | (.ok (), made) => write made target
where
  /-- A failed write leaves the file system as it is. -/
  write (files : FileSystem) (target : Path) : Except IoFailure Unit × FileSystem :=
    match files.writeText target content with
    | .ok written => (.ok (), written)
    | .error failure => (.error failure, files)

/-! ### With limited room -/

/-- A sink that refuses every write after a number of writes. -/
def Sink.limited {σ : Type} (sink : Sink (StateM σ)) (refusal : IoFailure) :
    Sink (StateM (Nat × σ)) where
  write path content := fun (room, state) ↦
    match room with
    | 0 => (.error refusal, (0, state))
    | room + 1 =>
      let (result, state) := sink.write path content state
      (result, (room, state))

end FrameSorter
