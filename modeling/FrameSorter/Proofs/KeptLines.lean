import FrameSorter.Proofs.CompiledArtifacts
import FrameSorter.Proofs.DispatcherHeader
import FrameSorter.Proofs.Identifiers

/-!
# Configured texts and the lines of a pack

The texts of a configuration go into the functions of a pack as they are, line feeds included. A pack
keeps its lines if the dispatcher has one dispatch line for each emitted item and the functions of
groups and items have the two lines of a routing script (`Configuration.KeepsLines`). That is so for
exactly those configurations in which no text breaks a line (`Configuration.IsLineSafe`,
`keepsLines_iff`); a group name with a line feed is enough to add a dispatch line
(`not_keepsLines_brokenName`).
-/

set_option autoImplicit false
set_option relaxedAutoImplicit false

namespace FrameSorter

/-- The dispatch lines of the emitted items: each runs the function of its item. -/
def Configuration.functionDispatchLines (config : Configuration) : List String :=
  List.zipWith
    (fun item function ↦ dispatchLine item (functionCall config.pack.packNamespace function.name))
    (emittedItems (itemsOf (emittedGroups config.groups))) ((compile config).artifactsOf .item)

/-- Every line of the pack is one that is written for a declaration. -/
structure Configuration.KeepsLines (config : Configuration) : Prop where
  /-- The dispatch lines are those of the emitted items in order, and the line of an item runs the
  function of the item. -/
  dispatch_lines :
    (dispatchLinesOf (compile config).dispatcher.content).map (· ++ "\n") =
      config.functionDispatchLines
  /-- There are as many as counted items. -/
  count :
    (dispatchLinesOf (compile config).dispatcher.content).length =
      (compile config).stats.totalItems
  /-- The functions of groups and items have two lines. -/
  two_lines : ∀ routine ∈ (compile config).routines, (textLines routine.content).length = 2

/-- No text of the configuration breaks a line of the pack. -/
structure Configuration.IsLineSafe (config : Configuration) : Prop where
  /-- No declared name breaks the comment of the dispatcher into a dispatch line. -/
  names : ∀ group ∈ config.groups, ¬ BreaksIntoDispatchLine group.name
  /-- No effect breaks its command into a dispatch line, nor does the namespace in it. -/
  effects : ∀ effect ∈ config.effects,
    ¬ BreaksIntoDispatchLine effect ∧ ¬ BreaksIntoDispatchLine config.pack.packNamespace
  /-- The texts in the function of an emitted group have no line feed. -/
  groups : ∀ group ∈ emittedGroups config.groups,
    '\n' ∉ config.pack.frameKind.toList ∧ '\n' ∉ (group.frame.getD "").toList ∧
      '\n' ∉ (config.fallbackCommand group).toList
  /-- The texts in the dispatch line of an emitted item have no line feed, and the line does not end in
  a carriage return. -/
  items : ∀ item ∈ emittedItems (itemsOf (emittedGroups config.groups)),
    '\n' ∉ item.toList ∧ '\n' ∉ config.pack.packNamespace.toList ∧
      (itemName item).toList.getLast? ≠ some '\r'

/-! ### Functions of groups and items -/

variable {config : Configuration}

/-- The function of a group has two lines exactly if the texts in it have no line feed. -/
theorem two_lines_groupRoutine_iff {group : Group} :
    (textLines (config.groupRoutine group).content).length = 2 ↔
      '\n' ∉ config.pack.frameKind.toList ∧ '\n' ∉ (group.frame.getD "").toList ∧
        '\n' ∉ (config.fallbackCommand group).toList :=
  length_textLines_routingScript_eq_two_iff

/-- The function of an item has two lines exactly if the texts in it have no line feed. -/
theorem two_lines_itemRoutine_iff {owner : Group} {item : String} :
    (textLines (config.itemRoutine owner item).content).length = 2 ↔
      '\n' ∉ config.pack.frameKind.toList ∧ '\n' ∉ item.toList ∧
        '\n' ∉ config.pack.packNamespace.toList := by
  have hcall : '\n' ∉ (functionCall config.pack.packNamespace
      (groupArtifactName (groupId owner.name))).toList ↔
        '\n' ∉ config.pack.packNamespace.toList := by
    rw [← List.count_eq_zero, ← List.count_eq_zero, count_groupCall]
  rw [← hcall]
  exact length_textLines_routingScript_eq_two_iff

/-! ### Dispatch lines -/

/-- The command in the dispatch line of an item. -/
def Configuration.dispatchCommand (config : Configuration) (item : String) : String :=
  dispatchLinePrefix ++ "nbt=\x7bItem:\x7bid:" ++ Quoted.quote item '"' ++ "\x7d\x7d] run " ++
    functionCall config.pack.packNamespace (itemArtifactName (itemName item))

/-- A dispatch line is its command and a line feed. -/
theorem itemDispatchLine_eq (config : Configuration) (item : String) :
    config.itemDispatchLine item = config.dispatchCommand item ++ "\n" :=
  rfl

/-- The command begins like every dispatch line. -/
theorem prefix_dispatchCommand (config : Configuration) (item : String) :
    dispatchLinePrefix.toList <+: (config.dispatchCommand item).toList := by
  unfold Configuration.dispatchCommand
  simp only [String.toList_append, List.append_assoc]
  exact List.prefix_append _ _

/-- The command has no line feed exactly if the item and the namespace have none. -/
theorem lineFeed_notMem_dispatchCommand_iff {item : String} :
    '\n' ∉ (config.dispatchCommand item).toList ↔
      '\n' ∉ item.toList ∧ '\n' ∉ config.pack.packNamespace.toList := by
  have hname : '\n' ∉ item.toList → '\n' ∉ (itemName item).toList :=
    fun hitem hfeed ↦ hitem (toList_itemName_subset item hfeed)
  have hbegins : dispatchLinePrefix.toList.count '\n' = 0 := by decide
  have hcount : (config.dispatchCommand item).toList.count '\n' =
      item.toList.count '\n' + config.pack.packNamespace.toList.count '\n' +
        (itemName item).toList.count '\n' := by
    unfold Configuration.dispatchCommand
    simp [count_functionCall, count_quote, itemArtifactName, hbegins]
    omega
  simp only [← List.count_eq_zero] at hname ⊢
  omega

/-- The command ends in a carriage return exactly if the item's name does. -/
theorem getLast?_dispatchCommand_iff {item : String} :
    (config.dispatchCommand item).toList.getLast? = some '\r' ↔
      (itemName item).toList.getLast? = some '\r' := by
  obtain ⟨beginning, hcommand⟩ : ∃ beginning, (config.dispatchCommand item).toList =
      beginning ++ '_' :: (itemName item).toList := by
    refine ⟨(dispatchLinePrefix ++ "nbt=\x7bItem:\x7bid:" ++ Quoted.quote item '"' ++ "\x7d\x7d] run " ++
      "function " ++ config.pack.packNamespace ++ ":item").toList, ?_⟩
    unfold Configuration.dispatchCommand functionCall resourceLocation itemArtifactName
    simp
  rw [hcommand, List.getLast?_append_cons]
  cases hname : (itemName item).toList with
  | nil => simp
  | cons c rest => rw [List.getLast?_cons_cons]

/-- The dispatch line of an item is read back unchanged exactly if the item and the namespace have no
line feed and the line has no carriage return at its end. -/
theorem dispatchLinesOf_itemDispatchLine_iff {item : String} :
    dispatchLinesOf (config.itemDispatchLine item) = [config.dispatchCommand item] ↔
      '\n' ∉ item.toList ∧ '\n' ∉ config.pack.packNamespace.toList ∧
        (itemName item).toList.getLast? ≠ some '\r' := by
  rw [itemDispatchLine_eq, dispatchLinesOf_eq_singleton_iff (prefix_dispatchCommand config item),
    lineFeed_notMem_dispatchCommand_iff, and_assoc, Ne, getLast?_dispatchCommand_iff]

/-- There is always a dispatch line to be read in the dispatch line of an item. -/
theorem dispatchLinesOf_itemDispatchLine_ne_nil (config : Configuration) (item : String) :
    dispatchLinesOf (config.itemDispatchLine item) ≠ [] := by
  rw [itemDispatchLine_eq, Ne, dispatchLinesOf_eq_nil_iff]
  exact fun hnone ↦ hnone.1 (prefix_dispatchCommand config item)

/-- Pieces that are never empty make up a list of one value for each member exactly if nothing stands
before them and each is the value of its member. -/
theorem append_flatMap_eq_map_iff {α β : Type*} {pieces : α → List β} {value : α → β}
    (hpieces : ∀ member, pieces member ≠ []) {front : List β} {members : List α} :
    front ++ members.flatMap pieces = members.map value ↔
      front = [] ∧ ∀ member ∈ members, pieces member = [value member] := by
  induction members generalizing front with
  | nil => simp
  | cons member members ih =>
    rw [List.flatMap_cons, List.map_cons, List.forall_mem_cons]
    cases front with
    | nil =>
      obtain ⟨first, others, hpiece⟩ := List.exists_cons_of_ne_nil (hpieces member)
      rw [List.nil_append, hpiece, List.cons_append, List.cons.injEq, ih, List.cons.injEq, and_assoc]
      simp
    | cons extra front =>
      -- With an element in front, the pieces come one member too late.
      rw [List.cons_append, List.cons.injEq, ← List.append_assoc, ih]
      simp [hpieces member]

/-- The dispatch lines in the dispatcher are those of the header and those in the lines of the emitted
items. -/
theorem dispatchLinesOf_dispatcher_compile (config : Configuration) :
    dispatchLinesOf (compile config).dispatcher.content =
      dispatchLinesOf (dispatcherHeader config) ++
        (emittedItems (itemsOf (emittedGroups config.groups))).flatMap fun item ↦
          dispatchLinesOf (config.itemDispatchLine item) := by
  have hlines : ∀ line ∈ config.plannedDispatchLines config.groups, ∃ text, line = text ++ "\n" := by
    unfold Configuration.plannedDispatchLines
    rw [List.forall_mem_map]
    exact fun item _ ↦ ⟨config.dispatchCommand item, itemDispatchLine_eq config item⟩
  have hcontent : (compile config).dispatcher.content =
      dispatcherHeader config ++ String.join (config.plannedDispatchLines config.groups) :=
    congrArg Artifact.content (dispatcher_compile config)
  rw [hcontent, dispatchLinesOf_dispatcher config hlines, Configuration.plannedDispatchLines,
    List.flatMap_map]

/-- Each emitted item with its function gives the dispatch line of the item. -/
theorem functionDispatchLines_eq (config : Configuration) :
    config.functionDispatchLines =
      ((emittedItems (itemsOf (emittedGroups config.groups))).map config.dispatchCommand).map
        (· ++ "\n") := by
  have hnames : ((compile config).artifactsOf .item).map Artifact.name =
      (emittedItems (itemsOf (emittedGroups config.groups))).map fun item ↦
        itemArtifactName (itemName item) := by
    rw [← config.map_name_filter_item_plannedRoutines, ← routines_compile]
    rfl
  calc config.functionDispatchLines
      = List.zipWith
          (fun item name ↦ dispatchLine item (functionCall config.pack.packNamespace name))
          (emittedItems (itemsOf (emittedGroups config.groups)))
          (((compile config).artifactsOf .item).map Artifact.name) := by
        rw [List.zipWith_map_right, Configuration.functionDispatchLines]
    _ = (emittedItems (itemsOf (emittedGroups config.groups))).map config.itemDispatchLine := by
      rw [hnames, List.zipWith_map_right, List.zipWith_self]
      rfl
    _ = ((emittedItems (itemsOf (emittedGroups config.groups))).map config.dispatchCommand).map
          (· ++ "\n") := by
      rw [List.map_map]
      rfl

/-- The dispatch lines are those of the emitted items exactly if the header has none and no text breaks
the line of an item. -/
theorem dispatch_lines_iff (config : Configuration) :
    (dispatchLinesOf (compile config).dispatcher.content).map (· ++ "\n") =
        config.functionDispatchLines ↔
      dispatchLinesOf (dispatcherHeader config) = [] ∧
        ∀ item ∈ emittedItems (itemsOf (emittedGroups config.groups)),
          '\n' ∉ item.toList ∧ '\n' ∉ config.pack.packNamespace.toList ∧
            (itemName item).toList.getLast? ≠ some '\r' := by
  have hinjective : Function.Injective (fun line : String ↦ line ++ "\n") :=
    fun first second hsame ↦ (String.append_left_inj "\n").mp hsame
  rw [functionDispatchLines_eq, (List.map_injective_iff.mpr hinjective).eq_iff,
    dispatchLinesOf_dispatcher_compile,
    append_flatMap_eq_map_iff (dispatchLinesOf_itemDispatchLine_ne_nil config)]
  simp only [dispatchLinesOf_itemDispatchLine_iff]

/-! ### Configurations that keep their lines -/

/-- A pack keeps its lines exactly if no text of its configuration breaks one. -/
theorem keepsLines_iff (config : Configuration) : config.KeepsLines ↔ config.IsLineSafe := by
  constructor
  · intro hkeeps
    obtain ⟨hheader, hitems⟩ := (dispatch_lines_iff config).mp hkeeps.dispatch_lines
    obtain ⟨hnames, heffects⟩ := (dispatchLinesOf_dispatcherHeader_eq_nil_iff config).mp hheader
    refine ⟨hnames, heffects, fun group hgroup ↦ ?_, hitems⟩
    have hroutine := (group_routine_iff.mpr ⟨group, hgroup, rfl⟩).1
    exact two_lines_groupRoutine_iff.mp (hkeeps.two_lines _ hroutine)
  · intro hsafe
    have hheader := (dispatchLinesOf_dispatcherHeader_eq_nil_iff config).mpr
      ⟨hsafe.names, hsafe.effects⟩
    have hlines := (dispatch_lines_iff config).mpr ⟨hheader, hsafe.items⟩
    refine ⟨hlines, ?_, fun routine hroutine ↦ ?_⟩
    · rw [functionDispatchLines_eq] at hlines
      have hlength := congrArg List.length hlines
      rw [stats_compile]
      simpa using hlength
    · rw [routines_compile] at hroutine
      rcases Configuration.of_mem_plannedRoutines hroutine with
        ⟨group, hgroup, rfl⟩ | ⟨owner, howner, item, hitem, rfl⟩
      · exact two_lines_groupRoutine_iff.mpr (hsafe.groups group hgroup)
      · obtain ⟨hkind, -, -⟩ := hsafe.groups owner howner
        obtain ⟨hfeed, hspace, -⟩ := hsafe.items item hitem
        exact two_lines_itemRoutine_iff.mpr ⟨hkind, hfeed, hspace⟩

/-- A group whose name has a line feed before the beginning of a dispatch line. -/
def brokenNameConfiguration : Configuration where
  groups :=
    [{ name := "Ores\nexecute if entity @s[tag=held] run say hi"
       items := ["minecraft:coal"]
       itemFrame := some "minecraft:chest" }]

/-- The name adds a dispatch line that no item has. -/
theorem not_keepsLines_brokenName : ¬ brokenNameConfiguration.KeepsLines := by
  intro hkeeps
  obtain ⟨hheader, -⟩ := (dispatch_lines_iff brokenNameConfiguration).mp hkeeps.dispatch_lines
  obtain ⟨hnames, -⟩ :=
    (dispatchLinesOf_dispatcherHeader_eq_nil_iff brokenNameConfiguration).mp hheader
  have hbreaks : BreaksIntoDispatchLine "Ores\nexecute if entity @s[tag=held] run say hi" := by
    decide +kernel
  exact hnames _ List.mem_cons_self hbreaks

end FrameSorter
