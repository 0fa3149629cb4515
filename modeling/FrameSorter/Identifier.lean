/-!
# Names derived from a configuration

Every function of a pack has a name, and every name is derived from a text of the configuration: the
function of a group from the group's name (`groupId`, `groupArtifactName`), the function of an item
from the item's identifier (`itemName`, `itemArtifactName`). The dispatcher has a fixed name. The
game refers to a function by its namespace and name (`resourceLocation`), and a command runs it by
`functionCall`.
-/

set_option autoImplicit false
set_option relaxedAutoImplicit false

namespace FrameSorter

/-- The characters of a group's name that its identifier keeps: ASCII letters, ASCII digits and the
low line. -/
def isWordCharacter (c : Char) : Bool :=
  c.isAlphanum || c == '_'

/-- The identifier of a group is its name without the characters that are not word characters. -/
def groupId (name : String) : String :=
  String.ofList (name.toList.filter isWordCharacter)

/-- The name of an item is what stands between the first and the second colon of its identifier,
and the whole identifier if it has no colon. -/
def itemName (item : String) : String :=
  match item.toList.dropWhile (· != ':') with
  | [] => item
  | _ :: afterColon => String.ofList (afterColon.takeWhile (· != ':'))

/-- The function that every item entity runs. -/
def dispatchArtifactName : String := "dispatch"

/-- The function of the group with this identifier. -/
def groupArtifactName (id : String) : String :=
  "group_" ++ id

/-- The function of the item with this name. -/
def itemArtifactName (name : String) : String :=
  "item_" ++ name

/-- A name within a namespace, as the game writes it. -/
def resourceLocation (space artifact : String) : String :=
  space ++ ":" ++ artifact

/-- The command that runs a function. -/
def functionCall (space artifact : String) : String :=
  "function " ++ resourceLocation space artifact

end FrameSorter
