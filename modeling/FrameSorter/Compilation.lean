import FrameSorter.Artifact
import FrameSorter.Diagnostic
import FrameSorter.Dispatcher
import FrameSorter.Frame
import FrameSorter.Identifier

/-!
# Compilation

`compile` turns a configuration into the functions of a pack. It reads the declared groups in order
and keeps a ledger (`Ledger`) of what has been claimed and what has been made so far. A group whose
identifier or frame is claimed is reported and claims nothing (`Ledger.addGroup`); any other group
claims both, and if it is complete (`Group.completeFrame`) it gets a function, and so does each of
its items whose identifier and name are new (`Ledger.addItem`). The ledger of the whole list is a
fold, so a prefix of the groups decides a prefix of every record in it.
-/

set_option autoImplicit false
set_option relaxedAutoImplicit false

namespace FrameSorter

/-! ### What a compilation yields -/

/-- The items that have a function, and the declared groups. -/
structure CompilationStats where
  totalItems : Nat
  totalGroups : Nat
  deriving DecidableEq, Repr

/-- The functions of a pack and what was wrong with its configuration. -/
structure Compilation where
  dispatcher : Artifact
  routines : List Artifact
  errors : List CompileError
  warnings : List CompileWarning
  stats : CompilationStats
  deriving DecidableEq, Repr

namespace Compilation

/-- All functions, the dispatcher first. -/
def artifacts (compilation : Compilation) : List Artifact :=
  compilation.dispatcher :: compilation.routines

/-- The first function of this name. -/
def artifact? (compilation : Compilation) (name : String) : Option Artifact :=
  compilation.artifacts.find? (·.name == name)

/-- The functions of this kind. -/
def artifactsOf (compilation : Compilation) (kind : ArtifactKind) : List Artifact :=
  compilation.artifacts.filter (·.kind == kind)

/-- Whether a declared group or item has no function. -/
def hasErrors (compilation : Compilation) : Bool :=
  !compilation.errors.isEmpty

end Compilation

/-! ### The ledger -/

/-- What has been claimed and made after some of the groups. `groupIds` and `frames` belong to every
group that repeated neither, `itemIds` to the items of emitted groups, and `itemNames` pairs each
claimed item name with the item that claimed it. -/
structure Ledger where
  groupIds : List String := []
  frames : List String := []
  itemIds : List String := []
  itemNames : List (String × String) := []
  emittedGroups : List String := []
  fallbacks : List (String × String) := []
  dispatchLines : List String := []
  routines : List Artifact := []
  errors : List CompileError := []
  totalItems : Nat := 0
  deriving DecidableEq, Repr

/-- The frame of a group that has an identifier, items and a frame, and else the first of these that
it lacks. -/
def Group.completeFrame (group : Group) : Except InvalidGroupReason String :=
  if groupId group.name = "" then .error .emptyId
  else if group.items = [] then .error .noItems
  else match group.frame with
    | none => .error .noItemFrame
    | some frame => .ok frame

namespace Configuration

/-- What an item does that no group takes. -/
def lastResort (config : Configuration) : String :=
  config.finalFallback.getD ("tag @s add " ++ config.pack.packNamespace ++ "_unsorted")

/-- The command that runs the function of the group with this identifier. -/
def groupCall (config : Configuration) (id : String) : String :=
  functionCall config.pack.packNamespace (groupArtifactName id)

/-- The command that runs the function of the item with this name. -/
def itemCall (config : Configuration) (name : String) : String :=
  functionCall config.pack.packNamespace (itemArtifactName name)

/-- The function of a group: it routes to the group's frame, and else to the fallback group or to
the last resort. -/
def groupArtifact (config : Configuration) (group : Group) (frame : String) : Artifact :=
  { name := groupArtifactName (groupId group.name)
    kind := .group
    content :=
      routingScript (FrameMatch.ofOptions config.pack frame config.groupNameInFrame)
        (match group.fallbackGroup with
          | some target => config.groupCall (groupId target)
          | none => config.lastResort) }

/-- The function of an item of the group with identifier `owner`: it routes to the item's own frame,
and else runs the function of the group. -/
def itemArtifact (config : Configuration) (owner item : String) : Artifact :=
  { name := itemArtifactName (itemName item)
    kind := .item
    content :=
      routingScript (FrameMatch.ofOptions config.pack item config.itemNameInFrame)
        (config.groupCall owner) }

end Configuration

namespace Ledger

/-- Records an error and changes nothing else. -/
def report (ledger : Ledger) (error : CompileError) : Ledger :=
  { ledger with errors := ledger.errors ++ [error] }

/-- Claims the identifier and the frame of a group. -/
def claim (ledger : Ledger) (group : Group) : Ledger :=
  { ledger with
    groupIds := ledger.groupIds ++ [groupId group.name]
    frames := ledger.frames ++ group.frame.toList }

/-- Makes the function of a group. -/
def emitGroup (ledger : Ledger) (config : Configuration) (group : Group) (frame : String) :
    Ledger :=
  { ledger with
    emittedGroups := ledger.emittedGroups ++ [groupId group.name]
    fallbacks := ledger.fallbacks ++ (group.fallbackGroup.toList.map fun target ↦ (group.name, target))
    routines := ledger.routines ++ [config.groupArtifact group frame] }

/-- Makes the function of an item and its dispatch line. -/
def emitItem (ledger : Ledger) (config : Configuration) (owner item : String) : Ledger :=
  { ledger with
    itemNames := ledger.itemNames ++ [(itemName item, item)]
    dispatchLines := ledger.dispatchLines ++ [dispatchLine item (config.itemCall (itemName item))]
    routines := ledger.routines ++ [config.itemArtifact owner item]
    totalItems := ledger.totalItems + 1 }

/-- One item of an emitted group. Its identifier counts as claimed even if its name is not new. -/
def addItem (config : Configuration) (group : Group) (ledger : Ledger) (item : String) : Ledger :=
  if item ∈ ledger.itemIds then
    ledger.report (.duplicateItem group.name item)
  else
    let claimed := { ledger with itemIds := ledger.itemIds ++ [item] }
    match ledger.itemNames.lookup (itemName item) with
    | some first => claimed.report (.duplicateItemName group.name item (itemName item) first)
    | none => claimed.emitItem config (groupId group.name) item

/-- The frame of a group, if an earlier group has claimed it. -/
def claimedFrame? (ledger : Ledger) (group : Group) : Option String :=
  group.frame.filter (· ∈ ledger.frames)

/-- One declared group. -/
def addGroup (config : Configuration) (ledger : Ledger) (group : Group) : Ledger :=
  if groupId group.name ∈ ledger.groupIds then
    ledger.report (.duplicateGroupId group.name (groupId group.name))
  else match ledger.claimedFrame? group with
    | some frame => ledger.report (.duplicateFrame group.name frame)
    | none =>
      match group.completeFrame with
      | .error reason => (ledger.claim group).report (.invalidGroup group.name reason)
      | .ok frame =>
        group.items.foldl (addItem config group) ((ledger.claim group).emitGroup config group frame)

/-- The ledger of a list of groups. -/
def ofGroups (config : Configuration) (groups : List Group) : Ledger :=
  groups.foldl (addGroup config) {}

/-- One warning for each fallback to a group that has no function. -/
def warnings (ledger : Ledger) : List CompileWarning :=
  (ledger.fallbacks.filter fun (_, target) ↦ groupId target ∉ ledger.emittedGroups).map
    fun (name, target) ↦ .unresolvedFallback name target

end Ledger

/-! ### The compiler -/

/-- Compiles a configuration. There is always a result: what cannot be compiled is reported. -/
def compile (config : Configuration) : Compilation :=
  let ledger := Ledger.ofGroups config config.groups
  { dispatcher :=
      { name := dispatchArtifactName
        kind := .dispatcher
        content := dispatcherHeader config ++ String.join ledger.dispatchLines }
    routines := ledger.routines
    errors := ledger.errors
    warnings := ledger.warnings
    stats := { totalItems := ledger.totalItems, totalGroups := config.groups.length } }

end FrameSorter
