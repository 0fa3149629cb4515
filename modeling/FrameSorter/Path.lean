/-!
# Paths

A path is kept as it was written, since that is how messages show it. Two spellings name the same
entry of a sink when their components agree (`Path.components`): repeated and final slashes do not
count, nor does a single dot except in front of a relative path, while two dots are a component like
any other. `Path.join` puts one path after another, and a path that starts with a slash starts
anew. `Path.ancestors` are the directories above an entry, as they are written in its path.
`Path.segments` keeps every written piece; a file system walks along those.
-/

set_option autoImplicit false
set_option relaxedAutoImplicit false

namespace FrameSorter

/-- A path, as written. -/
structure Path where
  text : String
  deriving DecidableEq, Repr

namespace Path

/-- The component that stands for the slash in front of an absolute path. -/
def rootMark : String := "/"

/-- Whether the path starts at the root of the file system. -/
def isAbsolute (path : Path) : Bool :=
  path.text.toList.head? == some '/'

/-- Whether a slash ends the path. -/
def endsInSlash (path : Path) : Bool :=
  path.text.toList.getLast? == some '/'

/-- What is written between the slashes; between two slashes in a row this is nothing. -/
def parts (path : Path) : List (List Char) :=
  path.text.toList.splitOn '/'

/-- The pieces between the slashes. -/
def pieces (path : Path) : List String :=
  (path.parts.filter (· != [])).map String.ofList

/-- The pieces between the slashes, after the root mark if the path is absolute. -/
def segments (path : Path) : List String :=
  if path.isAbsolute then rootMark :: path.pieces else path.pieces

/-- The segments without the dots that change nothing: a dot counts only where a relative path
starts with it. -/
def components (path : Path) : List String :=
  match path.segments with
  | [] => []
  | first :: rest => first :: rest.filter (· != ".")

/-- The path `other`, seen from `path`. -/
def join (path other : Path) : Path :=
  if other.isAbsolute then other
  else if path.text = "" ∨ path.endsInSlash then ⟨path.text ++ other.text⟩
  else ⟨path.text ++ "/" ++ other.text⟩

/-- The paths that parts name which are given in reverse: the one that all of them name, and behind it
those of the directories above. A part at the end does not count if it is empty, or if it is a dot with
something in front of it. -/
def ofReversedParts : List (List Char) → List Path
  | [] => []
  | last :: above =>
    if last = [] ∨ last = ['.'] ∧ above ≠ [] then ofReversedParts above
    else ⟨String.ofList (['/'].intercalate (last :: above).reverse)⟩ :: ofReversedParts above

/-- The path without what does not count at its end, and behind it the paths of the directories above,
as they are written in it. The root and the empty path have none. -/
def ancestors (path : Path) : List Path :=
  ofReversedParts path.parts.reverse

example : (Path.mk "/packs//sorter/./data/").ancestors =
    [⟨"/packs//sorter/./data"⟩, ⟨"/packs//sorter"⟩, ⟨"/packs"⟩] := by
  decide

/-- The last component, where it is a name. -/
def fileName? (path : Path) : Option String :=
  path.components.getLast?.filter fun last ↦ last != rootMark && last != "." && last != ".."

/-- What follows the last dot of the file name; a dot in front of the name starts no extension. -/
def extension? (path : Path) : Option String :=
  path.fileName?.bind fun name ↦
    let afterDot := name.toList.reverse.takeWhile (· != '.')
    let beforeDot := (name.toList.reverse.dropWhile (· != '.')).drop 1
    if beforeDot = [] then none else some (String.ofList afterDot.reverse)

end Path

end FrameSorter
