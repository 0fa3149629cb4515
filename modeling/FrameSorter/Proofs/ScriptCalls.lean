import FrameSorter.Dispatcher
import FrameSorter.Lifecycle
import FrameSorter.Proofs.Identifiers
import FrameSorter.Proofs.Planned

/-!
# The commands that scripts run

A line of a script runs a command under a condition (`Runs`), and a script calls a function where one of
its lines runs the call (`Calls`). The dispatch line of an item runs the item's function and no function of
an item with another name (`runs_itemDispatchLine`, `itemName_eq_of_runs`). A routing script has two lines:
the first moves the item to the frame and the second runs the fallback where there is no frame
(`fallsBackTo_routingScript`). Ticking calls the sorting function, and sorting calls the dispatcher.
-/

set_option autoImplicit false
set_option relaxedAutoImplicit false

namespace FrameSorter

/-- A line of a script ends with a command that it runs. -/
def Runs (line command : String) : Prop :=
  ∃ condition, line = condition ++ " run " ++ command ++ "\n"

/-- A script has a line that ends with a command that it runs. -/
def Calls (script command : String) : Prop :=
  ∃ beginning rest, script = beginning ++ rest ∧ Runs beginning command

/-- A script of two lines: one for the case that an entity answers to the selector, and one that runs a
command where none does. -/
structure FallsBackTo (script selector command : String) : Prop where
  lines :
    script =
      "execute if entity " ++ selector ++ " run tp @s " ++ selector ++ "\n" ++
        "execute unless entity " ++ selector ++ " run " ++ command ++ "\n"
  calls : Calls script command

/-- A script that ends with a command calls it. -/
theorem Runs.calls {script command : String} (hruns : Runs script command) : Calls script command :=
  ⟨script, "", String.append_empty.symm, hruns⟩

/-! ### Dispatch lines -/

variable {config : Configuration}

/-- The dispatch line of an item runs the function of the item. -/
theorem runs_itemDispatchLine (config : Configuration) (item : String) :
    Runs (config.itemDispatchLine item)
      (functionCall config.pack.packNamespace (itemArtifactName (itemName item))) := by
  have hrun : ("\x7d\x7d] run " : String) = "\x7d\x7d]" ++ " run " := rfl
  refine ⟨dispatchLinePrefix ++ "nbt=\x7bItem:\x7bid:" ++ Quoted.quote item '"' ++ "\x7d\x7d]", ?_⟩
  rw [Configuration.itemDispatchLine, dispatchLine, hrun]
  simp only [String.append_assoc]

/-- The last colon of a call of an item's function comes right before the function's name. -/
theorem toList_itemCall (space name : String) :
    (functionCall space (itemArtifactName name) ++ "\n").toList =
      ("function " ++ space).toList ++ ':' :: (itemArtifactName name ++ "\n").toList := by
  simp [functionCall, resourceLocation]

/-- A name without a colon gives a function's name without one. -/
theorem colon_notMem_itemArtifactName (item : String) :
    ':' ∉ (itemArtifactName (itemName item) ++ "\n").toList := by
  simp [itemArtifactName, colon_notMem_itemName item]

/-- The dispatch line of an item runs no function of an item with another name. -/
theorem itemName_eq_of_runs {first second : String}
    (hruns : Runs (config.itemDispatchLine first)
      (functionCall config.pack.packNamespace (itemArtifactName (itemName second)))) :
    itemName first = itemName second := by
  obtain ⟨ownCondition, hown⟩ := runs_itemDispatchLine config first
  obtain ⟨condition, hother⟩ := hruns
  rw [String.append_assoc] at hown hother
  have hsame := congrArg String.toList (hown.symm.trans hother)
  rw [@String.toList_append (ownCondition ++ " run "), @String.toList_append (condition ++ " run "),
    toList_itemCall, toList_itemCall, ← List.append_assoc, ← List.append_assoc] at hsame
  have hname := eq_of_append_cons_eq (colon_notMem_itemArtifactName first)
    (colon_notMem_itemArtifactName second) hsame
  rw [String.toList_inj] at hname
  exact itemArtifactName_inj.mp (by simpa using hname)

/-! ### Routing -/

/-- A routing script runs its fallback where its frame is missing. -/
theorem fallsBackTo_routingScript (frame : FrameMatch) (fallback : String) :
    FallsBackTo (routingScript frame fallback) frame.selector fallback where
  lines := rfl
  calls := Runs.calls
    ⟨"execute if entity " ++ frame.selector ++ " run tp @s " ++ frame.selector ++ "\n" ++
      "execute unless entity " ++ frame.selector, rfl⟩

/-! ### Lifecycle scripts -/

/-- The tick script runs the sorting function on the first tick of a cycle. -/
theorem calls_tickScript (options : PackOptions) :
    Calls (tickScript options) (functionCall options.packNamespace "sort") := by
  have hrun : (" matches 1 run " : String) = " matches 1" ++ " run " := rfl
  have hscript : ∃ rest, tickScript options =
      "scoreboard players add " ++ timerHolder ++ " " ++ timerObjective options.packNamespace ++
        " 1\n" ++ "execute if " ++ "score " ++ timerHolder ++ " " ++
        timerObjective options.packNamespace ++ " matches 1" ++ " run " ++
        functionCall options.packNamespace "sort" ++ "\n" ++ rest := by
    unfold tickScript
    rewrite [hrun]
    simp only [sortArtifactName, String.append_assoc]
    exact ⟨_, rfl⟩
  obtain ⟨rest, hrest⟩ := hscript
  exact ⟨_, rest, hrest, _, rfl⟩

/-- The sorting script is one line that runs the dispatcher. -/
theorem calls_sortScript (options : PackOptions) :
    Calls (sortScript options) (functionCall options.packNamespace "dispatch") :=
  Runs.calls
    ⟨"execute as @e[type=minecraft:item] at @s if block ~ ~-1 ~ " ++ options.markerTop ++
      " if block ~ ~-2 ~ " ++ options.markerBottom, rfl⟩

end FrameSorter
