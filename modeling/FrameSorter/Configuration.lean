/-!
# The configuration of a sorter

A configuration declares groups of items. Each group names the item frame that marks its storage
(`Group.frame`), and may name a group that takes what it cannot store. The pack options say how the
data pack is laid out and how often it runs; every option has a default.
-/

set_option autoImplicit false
set_option relaxedAutoImplicit false

namespace FrameSorter

/-- The options of the generated pack. -/
structure PackOptions where
  packNamespace : String := "sorter"
  description : String := "Item sorter"
  packFormat : UInt32 := 15
  searchRadius : UInt32 := 64
  frameKind : String := "minecraft:item_frame"
  markerTop : String := "minecraft:hopper"
  markerBottom : String := "minecraft:observer"
  interval : UInt32 := 20
  deriving DecidableEq, Repr

/-- From pack format 45 on the game looks for functions in directories named in the singular. -/
def PackOptions.hasSingularDirectories (options : PackOptions) : Bool :=
  45 ≤ options.packFormat

/-- A declared group of items. -/
structure Group where
  name : String
  items : List String := []
  itemFrame : Option String := none
  fallback : Option String := none
  deriving DecidableEq, Repr

/-- The item that the group's frame shows; an empty text names no item. -/
def Group.frame (group : Group) : Option String :=
  group.itemFrame.filter (· != "")

/-- The group that takes what this one cannot store; an empty text names no group. -/
def Group.fallbackGroup (group : Group) : Option String :=
  group.fallback.filter (· != "")

/-- A sorter, as its owner declares it. -/
structure Configuration where
  groups : List Group := []
  effects : List String := []
  finalFallback : Option String := none
  groupNameInFrame : Option String := none
  itemNameInFrame : Option String := none
  pack : PackOptions := {}
  deriving DecidableEq, Repr

end FrameSorter
