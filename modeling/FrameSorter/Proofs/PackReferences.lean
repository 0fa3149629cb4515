import FrameSorter.Proofs.CompiledArtifacts
import FrameSorter.Proofs.Diagnosis
import FrameSorter.Proofs.JsonDocuments
import FrameSorter.Proofs.ScriptCalls
import FrameSorter.Proofs.TakenFiles

/-!
# The references between the functions of a pack

The functions of a pack call each other by name: a dispatch line runs the function of an item, which
falls back to the function of the group that owns it, which may fall back to the function of another
group; every tick may run the sorting function, which runs the dispatcher; and two tags list the
functions that the game runs by itself, where a reader of the tags finds them (`HasTag`). `PackIsClosed`
says that every such name is the name of a function of the pack, with a file at the path of that name.
`packIsClosed_of_write` shows it for every configuration and every sink that takes the pack.
-/

set_option autoImplicit false
set_option relaxedAutoImplicit false

namespace FrameSorter

/-- The last function of a group in a list of functions. -/
def lastGroup? (routines : List Artifact) : Option Artifact :=
  (routines.filter (·.kind = .group)).getLast?

/-- The written files have that of a function, at the path of its name. -/
def HasFunction (config : Configuration) (written : List (Path × String)) (function : Artifact) :
    Prop :=
  (Pack.functionPath config.pack function.name, function.content) ∈ written

/-- The written files have a tag, and a reader of its document finds the list of these functions there and
nothing else. -/
def HasTag (config : Configuration) (written : List (Path × String)) (tag : String)
    (listed : List String) : Prop :=
  ∃ document, (Pack.tagPath config.pack tag, document) ∈ written ∧
    Json.readDocument document = .ok (.object [("values", .list (listed.map .text))])

/-- Every function that a written pack calls has a file. -/
structure PackIsClosed (config : Configuration) (written : List (Path × String)) : Prop where
  /-- The dispatch lines are what follows the header of the dispatcher. -/
  dispatcher_content :
    (compile config).dispatcher.content =
      dispatcherHeader config ++ String.join (config.plannedDispatchLines config.groups)
  /-- A dispatch line runs the function of an item. -/
  line_runs_item : ∀ line ∈ config.plannedDispatchLines config.groups,
    ∃ routine ∈ (compile config).routines, routine.kind = .item ∧
      Runs line (functionCall config.pack.packNamespace routine.name) ∧
      HasFunction config written routine
  /-- The function of an item is run by one dispatch line. -/
  item_run_once : ∀ routine ∈ (compile config).routines, routine.kind = .item →
    ∃ before line after, config.plannedDispatchLines config.groups = before ++ line :: after ∧
      Runs line (functionCall config.pack.packNamespace routine.name) ∧
      ∀ other ∈ before ++ after, ¬ Runs other (functionCall config.pack.packNamespace routine.name)
  /-- The function of an item calls, where its frame is missing, the function of the group that comes last
  before it, and that group declares the item. -/
  item_falls_back : ∀ reading ∈ withEarlier [] (compile config).routines, reading.2.kind = .item →
    ∃ owner frame, lastGroup? reading.1 = some owner ∧
      reading.2.content =
        routingScript frame (functionCall config.pack.packNamespace owner.name) ∧
      FallsBackTo reading.2.content frame.selector
        (functionCall config.pack.packNamespace owner.name) ∧
      HasFunction config written owner ∧
      ∃ group ∈ emittedGroups config.groups, owner = config.groupRoutine group ∧
        ∃ item ∈ group.items, reading.2.name = itemArtifactName (itemName item)
  /-- The function of a group that falls back to a named group calls, where its frame is missing, the
  function of that name, which is that of an emitted group exactly if no warning is about the group. -/
  group_falls_back : ∀ routine ∈ (compile config).routines, routine.kind = .group →
    ∃ group ∈ emittedGroups config.groups, routine.name = groupArtifactName (groupId group.name) ∧
      ∀ target, group.fallback = some target → target ≠ "" →
        (∃ frame, routine.content =
            routingScript frame
              (functionCall config.pack.packNamespace (groupArtifactName (groupId target))) ∧
          FallsBackTo routine.content frame.selector
            (functionCall config.pack.packNamespace (groupArtifactName (groupId target)))) ∧
        ((∃ callee ∈ (compile config).routines, callee.kind = .group ∧
            callee.name = groupArtifactName (groupId target) ∧ HasFunction config written callee) ↔
          ∀ fallback, .unresolvedFallback group.name fallback ∉ (compile config).warnings)
  /-- Ticking runs the sorting function. -/
  tick_calls_sort :
    Calls (tickScript config.pack) (functionCall config.pack.packNamespace "sort") ∧
      HasFunction config written ⟨"tick", .lifecycle, tickScript config.pack⟩
  /-- Sorting runs the dispatcher. -/
  sort_calls_dispatch :
    Calls (sortScript config.pack) (functionCall config.pack.packNamespace "dispatch") ∧
      HasFunction config written ⟨"sort", .lifecycle, sortScript config.pack⟩ ∧
      (compile config).dispatcher.name = "dispatch" ∧
      HasFunction config written (compile config).dispatcher
  /-- The load tag lists the function that sets the pack up. -/
  load_tag :
    HasTag config written "load" [config.pack.packNamespace ++ ":init"] ∧
      HasFunction config written ⟨"init", .lifecycle, initScript config.pack⟩
  /-- The tick tag lists the function that ticks. -/
  tick_tag :
    HasTag config written "tick" [config.pack.packNamespace ++ ":tick"] ∧
      HasFunction config written ⟨"tick", .lifecycle, tickScript config.pack⟩
  /-- The directories of functions and of their tags are both named in the singular, from format 45
  on, or both in the plural. -/
  directories : ∃ directory,
    directory = (if 45 ≤ config.pack.packFormat then "function" else "functions") ∧
      (∀ name, Pack.functionPath config.pack name =
        (((Path.mk "data").join ⟨config.pack.packNamespace⟩).join ⟨directory⟩).join
          ⟨name ++ ".mcfunction"⟩) ∧
      ∀ tag ∈ ["load", "tick"], Pack.tagPath config.pack tag =
        ⟨"data/minecraft/tags/" ++ directory ++ "/" ++ tag ++ ".json"⟩

/-! ### Dispatch lines -/

variable {config : Configuration}

/-- The dispatch line of an emitted item is the only one that runs the item's function. -/
theorem runs_once {item : String}
    (hitem : item ∈ emittedItems (itemsOf (emittedGroups config.groups))) :
    ∃ before line after, config.plannedDispatchLines config.groups = before ++ line :: after ∧
      Runs line (functionCall config.pack.packNamespace (itemArtifactName (itemName item))) ∧
      ∀ other ∈ before ++ after,
        ¬ Runs other (functionCall config.pack.packNamespace (itemArtifactName (itemName item))) := by
  have hnodup := nodup_itemName_emittedItems (itemsOf (emittedGroups config.groups))
  obtain ⟨before, after, hsplit⟩ := List.append_of_mem hitem
  refine ⟨before.map config.itemDispatchLine, config.itemDispatchLine item,
    after.map config.itemDispatchLine, ?_, runs_itemDispatchLine config item, ?_⟩
  · rw [Configuration.plannedDispatchLines, hsplit, List.map_append, List.map_cons]
  · intro line hline hruns
    rw [← List.map_append] at hline
    obtain ⟨other, hother, rfl⟩ := List.mem_map.mp hline
    rw [hsplit, List.map_append, List.map_cons, List.nodup_middle, ← List.map_append,
      List.nodup_cons] at hnodup
    refine hnodup.1 ?_
    rw [← itemName_eq_of_runs hruns]
    exact List.mem_map_of_mem hother

/-! ### Fallbacks -/

/-- The function of an item comes after the function of the group that declares it, with no function
of another group between them. -/
theorem exists_owner_of_item (config : Configuration) (groups : List Group) :
    ∀ reading ∈ withEarlier [] (config.plannedRoutines groups), reading.2.kind = .item →
      ∃ group ∈ emittedGroups groups, ∃ item ∈ group.items,
        lastGroup? reading.1 = some (config.groupRoutine group) ∧
          reading.2 = config.itemRoutine group item := by
  induction groups using List.reverseRecOn with
  | nil =>
    intro reading hreading
    cases hreading
  | append_singleton groups group ih =>
    intro reading hreading hkind
    rw [config.plannedRoutines_concat, withEarlier_append] at hreading
    rw [emittedGroups_concat]
    rcases List.mem_append.mp hreading with hbefore | hblock
    · obtain ⟨owner, howner, hitem⟩ := ih reading hbefore hkind
      exact ⟨owner, List.mem_append_left _ howner, hitem⟩
    · by_cases hemitted : group.IsEmitted groups
      · rw [if_pos hemitted] at hblock ⊢
        rcases List.mem_cons.mp hblock with rfl | hitems
        · cases hkind
        · obtain ⟨first, second, hsplit, hearlier⟩ := mem_withEarlier_iff.mp hitems
          have hmember : reading.2 ∈ (emittedAmong (itemsOf (emittedGroups groups)) group.items).map
              (config.itemRoutine group) := by
            rw [hsplit]
            exact List.mem_append_right _ List.mem_cons_self
          obtain ⟨item, hitem, heq⟩ := List.mem_map.mp hmember
          have hfirst : first.filter (·.kind = .group) = [] := by
            refine List.filter_eq_nil_iff.mpr fun routine hroutine ↦ ?_
            have hmapped : routine ∈
                (emittedAmong (itemsOf (emittedGroups groups)) group.items).map
                  (config.itemRoutine group) := by
              rw [hsplit]
              exact List.mem_append_left _ hroutine
            obtain ⟨other, -, rfl⟩ := List.mem_map.mp hmapped
            simp [Configuration.itemRoutine]
          refine ⟨group, by simp, item, (emittedAmong_sublist _ _).subset hitem, ?_, heq.symm⟩
          rw [hearlier, lastGroup?, List.filter_append, List.filter_append, hfirst]
          simp [Configuration.groupRoutine]
      · rw [if_neg hemitted] at hblock
        cases hblock

/-- The group that an emitted group falls back to is emitted exactly if no warning is about the
group. -/
theorem fallback_emitted_iff {group : Group} {target : String}
    (hgroup : group ∈ emittedGroups config.groups) (htarget : group.fallbackGroup = some target) :
    (∃ other ∈ emittedGroups config.groups, groupId other.name = groupId target) ↔
      ∀ fallback, .unresolvedFallback group.name fallback ∉ (compile config).warnings := by
  have hwarnings : (compile config).warnings = (emittedGroups config.groups).filterMap
      (·.fallbackWarning (emittedGroups config.groups)) :=
    warnings_eq_filterMap (ledgerReads_ofGroups config config.groups)
  rw [hwarnings]
  constructor
  · rintro ⟨other, hother, hid⟩ fallback hwarning
    obtain ⟨warned, hwarned, hsome⟩ := List.mem_filterMap.mp hwarning
    obtain ⟨unknown, hunknown, hnone, heq⟩ := Group.fallbackWarning_eq_some_iff.mp hsome
    obtain ⟨hname, -⟩ := CompileWarning.unresolvedFallback.inj heq
    have hsame : warned = group :=
      List.inj_on_of_nodup_map (nodup_groupId_emittedGroups config.groups) hwarned hgroup
        (congrArg groupId hname)
    rw [hsame, htarget] at hunknown
    obtain rfl := Option.some.inj hunknown
    exact hnone other hother hid
  · intro hsilent
    by_contra hunresolved
    push Not at hunresolved
    refine hsilent target (List.mem_filterMap.mpr ⟨group, hgroup, ?_⟩)
    exact Group.fallbackWarning_eq_some_iff.mpr ⟨target, htarget, hunresolved, rfl⟩

/-! ### Directories -/

/-- One name is used for the directories of functions and for those of their tags. -/
theorem directories_agree (options : PackOptions) :
    ∃ directory,
      directory = (if 45 ≤ options.packFormat then "function" else "functions") ∧
        (∀ name, Pack.functionPath options name =
          (((Path.mk "data").join ⟨options.packNamespace⟩).join ⟨directory⟩).join
            ⟨name ++ ".mcfunction"⟩) ∧
        ∀ tag ∈ ["load", "tick"], Pack.tagPath options tag =
          ⟨"data/minecraft/tags/" ++ directory ++ "/" ++ tag ++ ".json"⟩ := by
  refine ⟨_, rfl, ?_⟩
  unfold Pack.functionPath Pack.tagPath Pack.functionDirectory PackOptions.hasSingularDirectories
  by_cases hformat : 45 ≤ options.packFormat
  · rw [if_pos (decide_eq_true hformat), if_pos hformat]
    exact ⟨fun _ ↦ rfl, by decide⟩
  · rw [if_neg (by simp [hformat]), if_neg hformat]
    exact ⟨fun _ ↦ rfl, by decide⟩

/-! ### The files of a pack -/

/-- All functions of a pack are among its files. -/
theorem hasFunction_files {function : Artifact}
    (hfunction : function ∈ Pack.functions (compile config) config.pack) :
    HasFunction config (Pack.files (compile config) config.pack) function :=
  function_mem_files hfunction

/-- Compiled functions are among the files. -/
theorem hasFunction_of_routine {routine : Artifact}
    (hroutine : routine ∈ (compile config).routines) :
    HasFunction config (Pack.files (compile config) config.pack) routine :=
  hasFunction_files (List.mem_append_left _ (List.mem_cons_of_mem _ hroutine))

/-- Lifecycle functions are among the files. -/
theorem hasFunction_of_lifecycle {function : Artifact}
    (hfunction : function ∈ lifecycleArtifacts config.pack) :
    HasFunction config (Pack.files (compile config) config.pack) function :=
  hasFunction_files (List.mem_append_right _ hfunction)

/-- Each of the two tags lists one function. -/
theorem tags_eq (options : PackOptions) :
    Pack.tags options =
      [("load", [options.packNamespace ++ ":init"]), ("tick", [options.packNamespace ++ ":tick"])] := by
  have hinit : (":init" : String) = ":" ++ "init" := rfl
  have htick : (":tick" : String) = ":" ++ "tick" := rfl
  rw [hinit, htick, ← String.append_assoc, ← String.append_assoc]
  rfl

/-- The tags are among the files. -/
theorem hasTag_files {tag : String} {listed : List String}
    (htag : (tag, listed) ∈ Pack.tags config.pack) :
    HasTag config (Pack.files (compile config) config.pack) tag listed := by
  refine ⟨Pack.tagDocument listed, ?_, Pack.readDocument_tag listed⟩
  rw [Pack.files]
  refine List.mem_append_left _ (List.mem_append_right _ ?_)
  exact List.mem_map.mpr ⟨(tag, listed), htag, rfl⟩

/-- A group that names a fallback calls a function which has a file exactly if no warning is about the
group. -/
theorem fallback_has_file_iff {group : Group} {target : String}
    (hgroup : group ∈ emittedGroups config.groups) (htarget : group.fallbackGroup = some target) :
    (∃ callee ∈ (compile config).routines, callee.kind = .group ∧
        callee.name = groupArtifactName (groupId target) ∧
          HasFunction config (Pack.files (compile config) config.pack) callee) ↔
      ∀ fallback, .unresolvedFallback group.name fallback ∉ (compile config).warnings := by
  rw [← fallback_emitted_iff hgroup htarget]
  constructor
  · rintro ⟨callee, hcallee, hkind, hname, -⟩
    obtain ⟨other, hother, rfl⟩ := group_routine_iff.mp ⟨hcallee, hkind⟩
    exact ⟨other, hother, groupArtifactName_inj.mp hname⟩
  · rintro ⟨other, hother, hid⟩
    obtain ⟨hcallee, hkind⟩ := group_routine_iff.mpr ⟨other, hother, rfl⟩
    exact ⟨config.groupRoutine other, hcallee, hkind, groupArtifactName_inj.mpr hid,
      hasFunction_of_routine hcallee⟩

/-- The files of a pack are closed under calls. -/
theorem packIsClosed_files (config : Configuration) :
    PackIsClosed config (Pack.files (compile config) config.pack) where
  dispatcher_content := by rw [dispatcher_compile]
  line_runs_item := by
    intro line hline
    obtain ⟨item, hitem, rfl⟩ := List.mem_map.mp hline
    obtain ⟨routine, hroutine, hkind, hname⟩ := item_routine_iff.mpr ⟨item, hitem, rfl⟩
    refine ⟨routine, hroutine, hkind, ?_, hasFunction_of_routine hroutine⟩
    rw [hname]
    exact runs_itemDispatchLine config item
  item_run_once := by
    intro routine hroutine hkind
    obtain ⟨item, hitem, hname⟩ := item_routine_iff.mp ⟨routine, hroutine, hkind, rfl⟩
    rw [← hname]
    exact runs_once hitem
  item_falls_back := by
    intro reading hreading hkind
    rw [routines_compile] at hreading
    obtain ⟨group, hgroup, item, hitem, hlast, hroutine⟩ :=
      exists_owner_of_item config config.groups reading hreading hkind
    have howner := (group_routine_iff.mpr ⟨group, hgroup, rfl⟩).1
    rw [hroutine]
    exact ⟨config.groupRoutine group, _, hlast, rfl, fallsBackTo_routingScript _ _,
      hasFunction_of_routine howner, group, hgroup, rfl, item, hitem, rfl⟩
  group_falls_back := by
    intro routine hroutine hkind
    obtain ⟨group, hgroup, rfl⟩ := group_routine_iff.mp ⟨hroutine, hkind⟩
    refine ⟨group, hgroup, rfl, fun target hfallback hnamed ↦ ?_⟩
    have htarget : group.fallbackGroup = some target := by
      rw [Group.fallbackGroup, hfallback]
      simp [Option.filter, hnamed]
    have hscript : (config.groupRoutine group).content =
        routingScript (.ofOptions config.pack (group.frame.getD "") config.groupNameInFrame)
          (functionCall config.pack.packNamespace (groupArtifactName (groupId target))) := by
      rw [← config.fallbackCommand_of_some htarget]
      rfl
    refine ⟨⟨_, hscript, ?_⟩, fallback_has_file_iff hgroup htarget⟩
    rw [hscript]
    exact fallsBackTo_routingScript _ _
  tick_calls_sort :=
    ⟨calls_tickScript config.pack,
      hasFunction_of_lifecycle (List.mem_cons_of_mem _ List.mem_cons_self)⟩
  sort_calls_dispatch :=
    ⟨calls_sortScript config.pack,
      hasFunction_of_lifecycle (List.mem_cons_of_mem _ (List.mem_cons_of_mem _ List.mem_cons_self)),
      rfl, hasFunction_files (List.mem_append_left _ List.mem_cons_self)⟩
  load_tag :=
    ⟨hasTag_files (by simp [tags_eq]), hasFunction_of_lifecycle List.mem_cons_self⟩
  tick_tag :=
    ⟨hasTag_files (by simp [tags_eq]),
      hasFunction_of_lifecycle (List.mem_cons_of_mem _ List.mem_cons_self)⟩
  directories := directories_agree config.pack

/-- Every sink that takes the pack of a configuration has the files of all functions that are called in
it. -/
theorem packIsClosed_of_write (config : Configuration) {σ : Type} (sink : Sink (StateM σ)) (state : σ)
    {summary : PackSummary} {final : σ × List (Path × String)}
    (hwrite : Pack.write (compile config) config.pack sink.recording (state, []) =
      (.ok summary, final)) :
    PackIsClosed config final.2 := by
  rw [taken_of_write hwrite]
  exact packIsClosed_files config

/-- Two groups: the first falls back to the second, the second to a group that is not declared, and it
repeats an item name of the first. -/
def twoShelves : Configuration where
  groups :=
    [{ name := "Ores", items := ["minecraft:coal", "minecraft:iron_ore"]
       itemFrame := some "minecraft:coal", fallback := some "Rest" },
     { name := "Rest", items := ["minecraft:dirt", "mod:coal"]
       itemFrame := some "minecraft:dirt", fallback := some "Nowhere" }]

/-- The memory sink takes the pack of the two groups. -/
theorem packIsClosed_twoShelves :
    ∃ summary final,
      Pack.write (compile twoShelves) twoShelves.pack MemorySink.sink.recording ({}, []) =
          (.ok summary, final) ∧
        PackIsClosed twoShelves final.2 :=
  ⟨_, _, rfl, packIsClosed_of_write twoShelves MemorySink.sink {} rfl⟩

end FrameSorter
