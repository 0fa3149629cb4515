import FrameSorter.Configuration
import FrameSorter.Text.Quoted
import FrameSorter.Timer

/-!
# The dispatcher

Every item entity runs the dispatcher. Its text begins with a comment that lists the declared groups
and with the effects of a cycle, guarded by the cooldown (`dispatcherHeader`). One dispatch line per
item follows, which runs that item's function (`dispatchLine`). `dispatchLinesOf` reads those lines
back from a text.
-/

set_option autoImplicit false
set_option relaxedAutoImplicit false

namespace FrameSorter

/-- The comment on the declared groups, then the effects while the cooldown is down, then the
command that ends the cooldown; without effects there is nothing to cool down. -/
def dispatcherHeader (config : Configuration) : String :=
  let objective := cooldownObjective config.pack.packNamespace
  let effectLine (effect : String) : String :=
    "execute if score " ++ cooldownHolder ++ " " ++ objective ++ " matches 0 run " ++ effect ++ "\n"
  "# Item sorter dispatcher\n# " ++ toString config.groups.length ++ " groups: " ++
    String.intercalate ", " (config.groups.map Group.name) ++ "\n" ++
    String.join (config.effects.map effectLine) ++
    (if config.effects.isEmpty then ""
     else "scoreboard players set " ++ cooldownHolder ++ " " ++ objective ++ " 1\n")

/-- What every dispatch line begins with. -/
def dispatchLinePrefix : String := "execute if entity @s["

/-- The command that runs `call` for the item entities with this identifier. -/
def dispatchLine (item call : String) : String :=
  dispatchLinePrefix ++ "nbt=\x7bItem:\x7bid:" ++ Quoted.quote item '"' ++ "\x7d\x7d] run " ++ call ++
    "\n"

/-- Drops a carriage return at the end of a line that a line feed ended. -/
def dropCarriageReturn (line : List Char) : List Char :=
  if line.getLast? = some '\r' then line.dropLast else line

/-- The lines of a text: each is ended by a line feed or by a carriage return and a line feed, and
what follows the last line feed is a line if it is not empty. -/
def textLines (text : String) : List String :=
  let pieces := text.toList.splitOn '\n'
  let last := pieces.getLastD []
  (pieces.dropLast.map fun line ↦ String.ofList (dropCarriageReturn line)) ++
    (if last.isEmpty then [] else [String.ofList last])

/-- The lines of a text that are dispatch lines. -/
def dispatchLinesOf (text : String) : List String :=
  (textLines text).filter fun line ↦ dispatchLinePrefix.toList.isPrefixOf line.toList

end FrameSorter
