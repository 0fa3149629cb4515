import FrameSorter.Configuration
import FrameSorter.Json.Value
import FrameSorter.Path

/-!
# The layout of a pack

Where the files of a pack are (`functionPath`, `tagPath`, `metadataPath`), and the two kinds of
document beside the functions: the description of the pack (`metadataDocument`) and the lists of
functions that the game runs by itself (`tagDocument`).
-/

set_option autoImplicit false
set_option relaxedAutoImplicit false

namespace FrameSorter.Pack

/-- The name of the directories that hold functions, and tags of functions. -/
def functionDirectory (options : PackOptions) : Path :=
  if options.hasSingularDirectories then ⟨"function"⟩ else ⟨"functions"⟩

/-- The file of the function with this name. -/
def functionPath (options : PackOptions) (name : String) : Path :=
  (((Path.mk "data").join ⟨options.packNamespace⟩).join (functionDirectory options)).join
    ⟨name ++ ".mcfunction"⟩

/-- The file of the tag with this name in the game's own namespace. -/
def tagPath (options : PackOptions) (tag : String) : Path :=
  ((((Path.mk "data").join ⟨"minecraft"⟩).join ⟨"tags"⟩).join (functionDirectory options)).join
    ⟨tag ++ ".json"⟩

/-- The file that describes the pack. -/
def metadataPath : Path := ⟨"pack.mcmeta"⟩

/-- The description of a pack: its format and a text for people. -/
def metadataDocument (options : PackOptions) : String :=
  (Json.Value.object
    [("pack", .object
      [("pack_format", .natural options.packFormat.toNat),
       ("description", .text options.description)])]).document

/-- A tag that lists functions. -/
def tagDocument (functions : List String) : String :=
  (Json.Value.object [("values", .list (functions.map .text))]).document

end FrameSorter.Pack
