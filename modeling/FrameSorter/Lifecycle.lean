import FrameSorter.Artifact
import FrameSorter.Configuration
import FrameSorter.Identifier
import FrameSorter.Timer

/-!
# The lifecycle of a pack

Three fixed functions drive a pack: `init` sets the scoreboard up when the pack is loaded, `tick`
counts the ticks and starts a run every `interval` ticks, and `sort` runs the dispatcher on every item
entity that lies on a sorter.
-/

set_option autoImplicit false
set_option relaxedAutoImplicit false

namespace FrameSorter

/-- The function that the game runs when it loads the pack. -/
def initArtifactName : String := "init"

/-- The function that the game runs every tick. -/
def tickArtifactName : String := "tick"

/-- The function that a run starts with. -/
def sortArtifactName : String := "sort"

/-- Creates both objectives and resets both scores. -/
def initScript (options : PackOptions) : String :=
  let timer := timerObjective options.packNamespace
  let cooldown := cooldownObjective options.packNamespace
  "scoreboard objectives add " ++ timer ++ " dummy\n" ++
    "scoreboard objectives add " ++ cooldown ++ " dummy\n" ++
    "scoreboard players set " ++ timerHolder ++ " " ++ timer ++ " 0\n" ++
    "scoreboard players set " ++ cooldownHolder ++ " " ++ cooldown ++ " 0\n"

/-- Counts the tick, starts a run on the first tick of a cycle, and ends the cycle after `interval`
ticks, a cycle being one tick long at least. -/
def tickScript (options : PackOptions) : String :=
  let timer := timerObjective options.packNamespace
  let cooldown := cooldownObjective options.packNamespace
  let counted := "score " ++ timerHolder ++ " " ++ timer
  let last := toString (max options.interval.toNat 1)
  "scoreboard players add " ++ timerHolder ++ " " ++ timer ++ " 1\n" ++
    "execute if " ++ counted ++ " matches 1 run " ++
      functionCall options.packNamespace sortArtifactName ++ "\n" ++
    "execute if " ++ counted ++ " matches " ++ last ++ ".. run scoreboard players set " ++
      cooldownHolder ++ " " ++ cooldown ++ " 0\n" ++
    "execute if " ++ counted ++ " matches " ++ last ++ ".. run scoreboard players set " ++
      timerHolder ++ " " ++ timer ++ " 0\n"

/-- Runs the dispatcher on every item entity above the two marker blocks. -/
def sortScript (options : PackOptions) : String :=
  "execute as @e[type=minecraft:item] at @s if block ~ ~-1 ~ " ++ options.markerTop ++
    " if block ~ ~-2 ~ " ++ options.markerBottom ++ " run " ++
    functionCall options.packNamespace dispatchArtifactName ++ "\n"

/-- The three functions, in the order in which they are written. -/
def lifecycleArtifacts (options : PackOptions) : List Artifact :=
  [{ name := initArtifactName, kind := .lifecycle, content := initScript options },
   { name := tickArtifactName, kind := .lifecycle, content := tickScript options },
   { name := sortArtifactName, kind := .lifecycle, content := sortScript options }]

end FrameSorter
