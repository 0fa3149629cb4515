import FrameSorter.Proofs.Standing

/-!
# What a configuration asks for

The functions, dispatch lines and fallbacks of a list of groups, read off the declarations that
stand. The functions of the emitted groups come in order (`Configuration.plannedRoutines`): that of a
group (`Configuration.groupRoutine`), then those of its emitted items (`Configuration.itemRoutine`).
Every emitted item has one dispatch line (`Configuration.plannedDispatchLines`), and the fallbacks to
other groups are listed with the group that has them (`plannedFallbacks`).
-/

set_option autoImplicit false
set_option relaxedAutoImplicit false

namespace FrameSorter

/-- The emitted groups that fall back to a named group, by name, each with the name that it gives. -/
def plannedFallbacks (groups : List Group) : List (String × String) :=
  (emittedGroups groups).flatMap fun group ↦
    group.fallbackGroup.toList.map fun target ↦ (group.name, target)

/-- The last group adds its fallback if it is emitted. -/
theorem plannedFallbacks_concat (groups : List Group) (group : Group) :
    plannedFallbacks (groups ++ [group]) =
      plannedFallbacks groups ++
        if group.IsEmitted groups then
          group.fallbackGroup.toList.map fun target ↦ (group.name, target)
        else [] := by
  rw [plannedFallbacks, emittedGroups_concat, List.flatMap_append, ← plannedFallbacks]
  split <;> simp

namespace Configuration

/-- The command that runs where there is no group to fall back to. -/
def finalCommand (config : Configuration) : String :=
  match config.finalFallback with
  | some action => action
  | none => "tag @s add " ++ config.pack.packNamespace ++ "_unsorted"

/-- What the function of a group does where the group's frame is missing: it runs the function of the
group that it falls back to, if it names one. -/
def fallbackCommand (config : Configuration) (group : Group) : String :=
  match group.fallback with
  | some target =>
    if target ≠ "" then
      functionCall config.pack.packNamespace (groupArtifactName (groupId target))
    else config.finalCommand
  | none => config.finalCommand

/-- The function of an emitted group. -/
def groupRoutine (config : Configuration) (group : Group) : Artifact where
  name := groupArtifactName (groupId group.name)
  kind := .group
  content :=
    routingScript
      (FrameMatch.ofOptions config.pack (group.frame.getD "") config.groupNameInFrame)
      (config.fallbackCommand group)

/-- The function of an emitted item of an emitted group. -/
def itemRoutine (config : Configuration) (owner : Group) (item : String) : Artifact where
  name := itemArtifactName (itemName item)
  kind := .item
  content :=
    routingScript (FrameMatch.ofOptions config.pack item config.itemNameInFrame)
      (functionCall config.pack.packNamespace (groupArtifactName (groupId owner.name)))

/-- The function of an emitted group and those of its emitted items, where `earlier` are the items of
the emitted groups before it. -/
def routinesOf (config : Configuration) (earlier : List String) (group : Group) : List Artifact :=
  config.groupRoutine group :: (emittedAmong earlier group.items).map (config.itemRoutine group)

/-- The functions of the emitted groups and of their emitted items. -/
def plannedRoutines (config : Configuration) (groups : List Group) : List Artifact :=
  (withEarlier [] (emittedGroups groups)).flatMap fun reading ↦
    config.routinesOf (itemsOf reading.1) reading.2

/-- The dispatch line of an emitted item. -/
def itemDispatchLine (config : Configuration) (item : String) : String :=
  dispatchLine item (functionCall config.pack.packNamespace (itemArtifactName (itemName item)))

/-- The dispatch lines of the emitted items. -/
def plannedDispatchLines (config : Configuration) (groups : List Group) : List String :=
  (emittedItems (itemsOf (emittedGroups groups))).map config.itemDispatchLine

/-- A group that names a group to fall back to runs that group's function. -/
theorem fallbackCommand_of_some (config : Configuration) {group : Group} {target : String}
    (htarget : group.fallbackGroup = some target) :
    config.fallbackCommand group =
      functionCall config.pack.packNamespace (groupArtifactName (groupId target)) := by
  obtain ⟨hfallback, hnonempty⟩ := Option.filter_eq_some_iff.mp htarget
  have hnamed : target ≠ "" := by simpa using hnonempty
  rw [fallbackCommand, hfallback]
  exact if_pos hnamed

/-- A group that names none runs the final command. -/
theorem fallbackCommand_of_none (config : Configuration) {group : Group}
    (hnone : group.fallbackGroup = none) :
    config.fallbackCommand group = config.finalCommand := by
  unfold fallbackCommand
  cases hfallback : group.fallback with
  | none => rfl
  | some target =>
    rw [Group.fallbackGroup, hfallback] at hnone
    have hempty : target = "" := by simpa using hnone
    exact if_neg (not_not.mpr hempty)

/-- The last resort of the compiler is the final command. -/
theorem lastResort_eq_finalCommand (config : Configuration) :
    config.lastResort = config.finalCommand := by
  unfold lastResort finalCommand
  cases config.finalFallback <;> rfl

/-- The function that is made for a group is the one that it asks for. -/
theorem groupArtifact_eq_groupRoutine (config : Configuration) {group : Group} {frame : String}
    (hframe : group.frame = some frame) :
    config.groupArtifact group frame = config.groupRoutine group := by
  cases htarget : group.fallbackGroup with
  | none =>
    rw [groupRoutine, config.fallbackCommand_of_none htarget, hframe, ← lastResort_eq_finalCommand]
    simp only [groupArtifact, htarget]
    rfl
  | some target =>
    rw [groupRoutine, config.fallbackCommand_of_some htarget, hframe]
    simp only [groupArtifact, htarget]
    rfl

/-- The function that is made for an item is the one that it asks for. -/
theorem itemArtifact_eq_itemRoutine (config : Configuration) (owner : Group) (item : String) :
    config.itemArtifact (groupId owner.name) item = config.itemRoutine owner item :=
  rfl

/-- The last group adds its functions if it is emitted. -/
theorem plannedRoutines_concat (config : Configuration) (groups : List Group) (group : Group) :
    config.plannedRoutines (groups ++ [group]) =
      config.plannedRoutines groups ++
        if group.IsEmitted groups then
          config.routinesOf (itemsOf (emittedGroups groups)) group
        else [] := by
  rw [plannedRoutines, emittedGroups_concat]
  split
  · rw [withEarlier_concat, List.flatMap_append, ← plannedRoutines, List.nil_append]
    simp
  · rw [List.append_nil, List.append_nil, plannedRoutines]

/-- A planned function is that of an emitted group or that of an emitted item of such a group. -/
theorem of_mem_plannedRoutines {config : Configuration} {groups : List Group} {routine : Artifact}
    (hroutine : routine ∈ config.plannedRoutines groups) :
    (∃ group ∈ emittedGroups groups, routine = config.groupRoutine group) ∨
      ∃ owner ∈ emittedGroups groups, ∃ item ∈ emittedItems (itemsOf (emittedGroups groups)),
        routine = config.itemRoutine owner item := by
  induction groups using List.reverseRecOn with
  | nil => cases hroutine
  | append_singleton groups group ih =>
    rw [plannedRoutines_concat, List.mem_append] at hroutine
    rw [emittedGroups_concat, itemsOf_append, emittedItems_append]
    rcases hroutine with hbefore | hlast
    · rcases ih hbefore with ⟨owner, howner, rfl⟩ | ⟨owner, howner, item, hitem, rfl⟩
      · exact Or.inl ⟨owner, List.mem_append_left _ howner, rfl⟩
      · exact Or.inr ⟨owner, List.mem_append_left _ howner, item, List.mem_append_left _ hitem, rfl⟩
    · split_ifs at hlast with hemitted
      · rw [if_pos hemitted, itemsOf_singleton]
        rcases List.mem_cons.mp hlast with rfl | hitems
        · exact Or.inl ⟨group, by simp, rfl⟩
        · obtain ⟨item, hitem, rfl⟩ := List.mem_map.mp hitems
          exact Or.inr ⟨group, by simp, item, List.mem_append_right _ hitem, rfl⟩
      · cases hlast

/-- The functions of groups among the planned ones are those of the emitted groups. -/
theorem filter_group_plannedRoutines (config : Configuration) (groups : List Group) :
    (config.plannedRoutines groups).filter (·.kind = .group) =
      (emittedGroups groups).map config.groupRoutine := by
  induction groups using List.reverseRecOn with
  | nil => rfl
  | append_singleton groups group ih =>
    rw [plannedRoutines_concat, emittedGroups_concat, List.filter_append, ih, List.map_append]
    split
    · simp [routinesOf, groupRoutine, itemRoutine]
    · rfl

/-- The functions of items among the planned ones have the names of the emitted items. -/
theorem map_name_filter_item_plannedRoutines (config : Configuration) (groups : List Group) :
    ((config.plannedRoutines groups).filter (·.kind = .item)).map Artifact.name =
      (emittedItems (itemsOf (emittedGroups groups))).map fun item ↦
        itemArtifactName (itemName item) := by
  induction groups using List.reverseRecOn with
  | nil => rfl
  | append_singleton groups group ih =>
    rw [plannedRoutines_concat, emittedGroups_concat, List.filter_append, List.map_append, ih]
    split
    · rw [itemsOf_append, itemsOf_singleton, emittedItems_append, List.map_append]
      simp [routinesOf, groupRoutine, itemRoutine, List.filter_map, Function.comp_def]
    · simp

end Configuration

end FrameSorter
