import FrameSorter.Path

/-!
# File systems

A file system without links, as a value: which locations hold which entries, and the location of the
working directory. A location is the list of names that leads to it from the root, and the root
itself is always a directory.

A path is resolved segment by segment (`FileSystem.walk`): every segment but the last has to lead to
a directory, two dots lead to the directory above, and the first segment that leads nowhere decides
the failure (`IoFailure`). On top of that stand the operations that programs use: to look at an entry
(`entry?`), to read a text (`readText`), to create a directory with those above it
(`makeDirectories`), and to write a text (`writeText`). Only the last two change anything, the one by
adding directories, the other by setting the content of a single file.
-/

set_option autoImplicit false
set_option relaxedAutoImplicit false

namespace FrameSorter

/-- Why an operation on files fails. -/
inductive IoFailure
  | notFound
  | alreadyExists
  | notDirectory
  | isDirectory
  | nameTooLong
  | invalidText
  | nulInName
  | other (text : String)
  deriving DecidableEq, Repr

/-- The wording of a failure. -/
def IoFailure.message : IoFailure → String
  | .notFound => "No such file or directory (os error 2)"
  | .alreadyExists => "File exists (os error 17)"
  | .notDirectory => "Not a directory (os error 20)"
  | .isDirectory => "Is a directory (os error 21)"
  | .nameTooLong => "File name too long (os error 36)"
  | .invalidText => "stream did not contain valid UTF-8"
  | .nulInName => "file name contained an unexpected NUL byte"
  | .other text => text

/-- The names that lead from the root to an entry. -/
abbrev Location := List String

/-- What stands at a location. -/
inductive Entry
  | directory
  | file (content : ByteArray)

instance : DecidableEq Entry
  | .directory, .directory => isTrue rfl
  | .directory, .file _ => isFalse nofun
  | .file _, .directory => isFalse nofun
  | .file first, .file second =>
    @decidable_of_iff _ (first.data = second.data) (by simp [ByteArray.ext_iff]) inferInstance

/-- Whether the entry is a directory. -/
def Entry.isDirectory : Entry → Bool
  | .directory => true
  | .file _ => false

/-- The entries by location, newest first, and the working directory. -/
structure FileSystem where
  entries : List (Location × Entry) := []
  workingDirectory : Location := []

namespace FileSystem

/-! ### Locations -/

/-- What stands at a location. -/
def at? (files : FileSystem) (location : Location) : Option Entry :=
  if location = [] then some .directory else files.entries.lookup location

/-- Puts an entry at a location, in place of what stood there. -/
def put (files : FileSystem) (location : Location) (entry : Entry) : FileSystem :=
  { files with entries := (location, entry) :: files.entries.filter (·.1 != location) }

/-! ### Resolving a path -/

/-- The most bytes that a name may have. -/
def nameLimit : Nat := 255

/-- The most bytes that a path may have. -/
def pathLimit : Nat := 4095

/-- The location that one segment leads to, which may hold nothing. -/
def follow (files : FileSystem) (here : Location) (segment : String) : Except IoFailure Location :=
  if segment = Path.rootMark then .ok []
  else if segment = "." then .ok here
  else if segment = ".." then .ok here.dropLast
  else match files.at? here with
    | some .directory =>
      if segment.utf8ByteSize ≤ nameLimit then .ok (here ++ [segment]) else .error .nameTooLong
    | _ => .error .notDirectory

/-- The location that the segments lead to, each of them to a directory. -/
def walk (files : FileSystem) (here : Location) : List String → Except IoFailure Location
  | [] => .ok here
  | segment :: rest =>
    match files.follow here segment with
    | .error failure => .error failure
    | .ok next =>
      match files.at? next with
      | none => .error .notFound
      | some (.file _) => .error .notDirectory
      | some .directory => files.walk next rest

/-- Whether a segment can name a new entry. -/
def isName (segment : String) : Bool :=
  segment != Path.rootMark && segment != "." && segment != ".."

/-- The location that a list of segments names: all but the last lead to directories. -/
def locate (files : FileSystem) (segments : List String) : Except IoFailure Location :=
  match segments.getLast? with
  | none => .error .notFound
  | some last =>
    match files.walk files.workingDirectory segments.dropLast with
    | .error failure => .error failure
    | .ok here => files.follow here last

/-- No operation takes a path with a NUL character, and none takes one beyond the length limit. -/
def checkText (path : Path) : Except IoFailure Unit :=
  if '\x00' ∈ path.text.toList then .error .nulInName
  else if pathLimit < path.text.utf8ByteSize then .error .nameTooLong
  else .ok ()

/-- What a path names; with a slash behind it, it can only name a directory. -/
def entry? (files : FileSystem) (path : Path) : Except IoFailure Entry := do
  checkText path
  let location ← files.locate path.segments
  match files.at? location with
  | none => .error .notFound
  | some .directory => .ok .directory
  | some (.file content) => if path.endsInSlash then .error .notDirectory else .ok (.file content)

/-- Whether the path names anything. -/
def isPresent (files : FileSystem) (path : Path) : Bool :=
  (files.entry? path).toBool

/-- Whether the path names a directory. -/
def isDirectory (files : FileSystem) (path : Path) : Bool :=
  match files.entry? path with
  | .ok entry => entry.isDirectory
  | .error _ => false

/-! ### Reading -/

/-- The text of the file that a path names. -/
def readText (files : FileSystem) (path : Path) : Except IoFailure String :=
  match files.entry? path with
  | .error failure => .error failure
  | .ok .directory => .error .isDirectory
  | .ok (.file content) =>
    match String.fromUTF8? content with
    | some text => .ok text
    | none => .error .invalidText

/-! ### Writing -/

/-- Creates the directory that a path names, in a directory that exists. -/
def makeDirectory (files : FileSystem) (path : Path) : Except IoFailure FileSystem := do
  checkText path
  let location ← files.locate path.segments
  match files.at? location with
  | some _ => .error .alreadyExists
  | none => .ok (files.put location .directory)

/-- Creates the directory that the first path names, and before it those of the other paths that do not
exist, which name the directories above it, the nearest one first. The file system that comes with a
failure holds what was created until then. -/
def makeDirectories (files : FileSystem) : List Path → Except IoFailure Unit × FileSystem
  | [] => (.ok (), files)
  | path :: above =>
    match files.makeDirectory path with
    | .ok made => (.ok (), made)
    | .error .notFound =>
      match files.makeDirectories above with
      | (.error failure, made) => (.error failure, made)
      | (.ok (), made) =>
        match made.makeDirectory path with
        | .ok complete => (.ok (), complete)
        | .error failure =>
          if made.isDirectory path then (.ok (), made) else (.error failure, made)
    | .error failure =>
      if files.isDirectory path then (.ok (), files) else (.error failure, files)

/-- The location of the file that a path names for writing. A path that ends in a slash or in dots
names no file. -/
def locateFile (files : FileSystem) (path : Path) : Except IoFailure Location := do
  checkText path
  match path.segments.getLast? with
  | none => .error .notFound
  | some last =>
    let here ← files.walk files.workingDirectory path.segments.dropLast
    if path.endsInSlash || !isName last then .error .isDirectory
    else files.follow here last

/-- Sets the content of the file that a path names, which is created if its directory exists. -/
def writeText (files : FileSystem) (path : Path) (text : String) :
    Except IoFailure FileSystem := do
  let location ← files.locateFile path
  match files.at? location with
  | some .directory => .error .isDirectory
  | _ => .ok (files.put location (.file text.toUTF8))

/-! ### Contents -/

/-- The regular files below the working directory, by the names that lead to them from there. -/
def filesBelow (files : FileSystem) : List (Location × ByteArray) :=
  files.entries.filterMap fun (location, entry) ↦
    match entry with
    | .directory => none
    | .file content =>
      if files.workingDirectory.isPrefixOf location then
        some (location.drop files.workingDirectory.length, content)
      else none

end FileSystem

end FrameSorter
