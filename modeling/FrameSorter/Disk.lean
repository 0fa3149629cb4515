import FrameSorter.Sink

/-!
# Disks

What the program asks of the place where its files are (`Disk`): whether a path names anything,
whether it names a directory, the text of a file, and to write a text below a directory. A file
system value is a disk (`FileSystem.disk`), and only writing changes it.
-/

set_option autoImplicit false
set_option relaxedAutoImplicit false

namespace FrameSorter

/-- The operations on files that loading a configuration and writing a pack need. -/
structure Disk (m : Type → Type) where
  isPresent : Path → m Bool
  isDirectory : Path → m Bool
  readText : Path → m (Except IoFailure String)
  store : Path → Path → String → m (Except IoFailure Unit)

/-- The sink that writes below a directory of the disk. -/
def Disk.directorySink {m : Type → Type} (disk : Disk m) (root : Path) : Sink m where
  write := disk.store root

/-- A file system as a disk. -/
def FileSystem.disk : Disk (StateM FileSystem) where
  isPresent path := return (← get).isPresent path
  isDirectory path := return (← get).isDirectory path
  readText path := return (← get).readText path
  store root path content := fun files ↦ files.store root path content

end FrameSorter
