import FrameSorter.Proofs.CleanConfiguration
import FrameSorter.Proofs.Diagnosis

/-!
# Leaving rejected declarations out

A rejected declaration shapes nothing but the errors. The emitted groups of a configuration are emitted
again where they are all that is declared (`emittedGroups_emittedGroups`): a group that goes may have
claimed an identifier or a frame, but whoever was rejected for it goes as well. What is rejected then
are the same items in the same order (`rejected_emittedGroups`). A group that keeps only its emitted
items (`keptGroups`) has the function that it had, and the kept items of all groups are the emitted ones
(`itemsOf_keptGroups`), so nothing is left to be rejected as long as every group keeps an item
(`rejected_keptGroups`). That the pack stays the same either way (`Configuration.CompilesLike`) is
`compile_withoutRejected`.
-/

set_option autoImplicit false
set_option relaxedAutoImplicit false

namespace FrameSorter

/-! ### Configurations that compile alike -/

/-- The configuration with other groups. -/
def Configuration.withGroups (config : Configuration) (groups : List Group) : Configuration :=
  { config with groups }

/-- Two configurations have the same functions of groups and of items, the same warnings, the same
number of items, and the same dispatcher behind its header. -/
structure Configuration.CompilesLike (config other : Configuration) : Prop where
  routines : (compile config).routines = (compile other).routines
  warnings : (compile config).warnings = (compile other).warnings
  totalItems : (compile config).stats.totalItems = (compile other).stats.totalItems
  dispatcher : ∃ body,
    (compile config).dispatcher.content = dispatcherHeader config ++ body ∧
      (compile other).dispatcher.content = dispatcherHeader other ++ body

/-- Groups that ask for the same functions, items and warnings compile alike. -/
theorem compilesLike_of_planned {config : Configuration} {groups : List Group}
    (hroutines : config.plannedRoutines groups = config.plannedRoutines config.groups)
    (hitems : emittedItems (itemsOf (emittedGroups groups)) =
      emittedItems (itemsOf (emittedGroups config.groups)))
    (hwarnings : (emittedGroups groups).filterMap (·.fallbackWarning (emittedGroups groups)) =
      (emittedGroups config.groups).filterMap (·.fallbackWarning (emittedGroups config.groups))) :
    (config.withGroups groups).CompilesLike config where
  routines := by
    rw [routines_compile, routines_compile, ← hroutines]
    rfl
  warnings := by
    rw [warnings_compile, warnings_compile, ← hwarnings]
    rfl
  totalItems := by
    rw [stats_compile, stats_compile, ← hitems]
    rfl
  dispatcher := by
    refine ⟨String.join (config.plannedDispatchLines config.groups), ?_, ?_⟩
    · rw [dispatcher_compile, Configuration.plannedDispatchLines, Configuration.plannedDispatchLines,
        ← hitems]
      rfl
    · rw [dispatcher_compile]

/-! ### Without the rejected groups -/

section Groups

variable {groups : List Group} {group : Group}

/-- The emitted groups are all emitted if nothing else is declared. -/
theorem emittedGroups_emittedGroups (groups : List Group) :
    emittedGroups (emittedGroups groups) = emittedGroups groups := by
  refine (emittedGroups_eq_self_iff _).mpr ⟨?_, fun group hgroup ↦ ?_⟩
  · exact (pairwise_firstComers Group.Clashes groups).sublist List.filter_sublist
  · exact of_decide_eq_true (List.mem_filter.mp hgroup).2

/-- The groups that are free among the emitted ones are free among all. -/
theorem freeGroups_emittedGroups_subset (groups : List Group) :
    freeGroups (emittedGroups groups) ⊆ freeGroups groups := fun _ hfree ↦
  (List.mem_filter.mp ((firstComers_sublist Group.Clashes _).subset hfree)).1

/-- What is emitted after some groups is emitted after the emitted ones of them. -/
theorem Group.IsEmitted.after_emittedGroups (hemitted : group.IsEmitted groups) :
    group.IsEmitted (emittedGroups groups) :=
  ⟨fun other hother ↦ hemitted.1 other (freeGroups_emittedGroups_subset groups hother), hemitted.2⟩

/-- Whether a rejected declaration is an item. -/
def Rejected.isItem : Rejected → Bool
  | .group _ _ => false
  | .item _ _ _ => true

/-- Whether an error is about an item. -/
def CompileError.isAboutItem : CompileError → Bool
  | .duplicateItem _ _ => true
  | .duplicateItemName _ _ _ _ => true
  | .duplicateGroupId _ _ => false
  | .duplicateFrame _ _ => false
  | .invalidGroup _ _ => false

/-- An item is answered by an error about an item, and a group by another one. -/
theorem Rejected.IsAnsweredBy.isItem_eq {declaration : Rejected} {error : CompileError}
    (hanswer : declaration.IsAnsweredBy error) : declaration.isItem = error.isAboutItem := by
  cases hanswer <;> rfl

/-- What is rejected of the items of a group are items. -/
theorem filter_isItem_rejectedAmong (earlier : List String) (owner : Group) (items : List String) :
    (rejectedAmong earlier owner items).filter (·.isItem) = rejectedAmong earlier owner items := by
  refine List.filter_eq_self.mpr fun declaration hdeclaration ↦ ?_
  obtain ⟨reading, -, rfl⟩ := List.mem_map.mp hdeclaration
  rfl

/-- Where only the emitted groups are declared, the items that were rejected are rejected again, and
nothing else. -/
theorem rejected_emittedGroups (groups : List Group) :
    rejected (emittedGroups groups) = (rejected groups).filter (·.isItem) := by
  induction groups using List.reverseRecOn with
  | nil => rfl
  | append_singleton groups group ih =>
    rw [rejected_concat, List.filter_append, ← ih, emittedGroups_concat]
    by_cases hemitted : group.IsEmitted groups
    · rw [if_pos hemitted, if_pos hemitted, rejected_concat, if_pos hemitted.after_emittedGroups,
        emittedGroups_emittedGroups, filter_isItem_rejectedAmong]
    · rw [if_neg hemitted, if_neg hemitted, List.append_nil]
      exact (List.append_nil _).symm

end Groups

/-- Where only the emitted groups are declared, the errors about items are all that is left. -/
theorem errors_compile_emittedGroups (config : Configuration) :
    (compile (config.withGroups (emittedGroups config.groups))).errors =
      (compile config).errors.filter (·.isAboutItem) := by
  have hanswers := (ledgerReads_ofGroups config config.groups).errors
  have hitems : List.Forall₂ Rejected.IsAnsweredBy (rejected (emittedGroups config.groups))
      ((compile config).errors.filter (·.isAboutItem)) := by
    rw [rejected_emittedGroups]
    exact List.rel_filter (fun _ _ hanswer ↦ Bool.eq_iff_iff.mp hanswer.isItem_eq) hanswers
  exact (eq_errors_of_forall₂ hitems).symm

/-! ### Without the rejected items -/

section Items

variable {groups : List Group}

/-- Each group with those of its items that are emitted after the items of the groups before it. -/
def keptGroups (groups : List Group) : List Group :=
  (withEarlier [] groups).map fun reading ↦
    { reading.2 with items := emittedAmong (itemsOf reading.1) reading.2.items }

/-- The last group keeps the items that are emitted after those of the others. -/
theorem keptGroups_concat (groups : List Group) (group : Group) :
    keptGroups (groups ++ [group]) =
      keptGroups groups ++ [{ group with items := emittedAmong (itemsOf groups) group.items }] := by
  rw [keptGroups, withEarlier_concat, List.map_append, ← keptGroups]
  rfl

/-- The kept items are the emitted ones. -/
theorem itemsOf_keptGroups (groups : List Group) :
    itemsOf (keptGroups groups) = emittedItems (itemsOf groups) := by
  induction groups using List.reverseRecOn with
  | nil => rfl
  | append_singleton groups group ih =>
    rw [keptGroups_concat, itemsOf_append, itemsOf_append, itemsOf_singleton, itemsOf_singleton, ih,
      emittedItems_append]

/-- The groups that keep some items have the identifiers that they had. -/
theorem map_groupId_keptGroups (groups : List Group) :
    (keptGroups groups).map (groupId ·.name) = groups.map (groupId ·.name) := by
  nth_rewrite 2 [← map_snd_withEarlier [] groups]
  rw [keptGroups, List.map_map, List.map_map]
  rfl

/-- Nothing is rejected of the emitted groups with their emitted items if each has one. -/
theorem rejected_keptGroups (hitems : ∀ group ∈ keptGroups (emittedGroups groups), group.items ≠ []) :
    rejected (keptGroups (emittedGroups groups)) = [] := by
  obtain ⟨hclash, hcomplete⟩ :=
    (emittedGroups_eq_self_iff _).mp (emittedGroups_emittedGroups groups)
  refine (rejected_eq_nil_iff _).mpr ⟨(emittedGroups_eq_self_iff _).mpr ⟨?_, fun group hgroup ↦ ?_⟩, ?_⟩
  · -- Identifiers and frames, by which groups clash, do not depend on the items.
    rw [← map_snd_withEarlier [] (emittedGroups groups), List.pairwise_map] at hclash
    rw [keptGroups, List.pairwise_map]
    exact hclash
  · obtain ⟨reading, hreading, rfl⟩ := List.mem_map.mp hgroup
    have hmember : reading.2 ∈ emittedGroups groups := by
      rw [← map_snd_withEarlier [] (emittedGroups groups)]
      exact List.mem_map_of_mem hreading
    obtain ⟨hid, -, hframe⟩ := hcomplete reading.2 hmember
    exact ⟨hid, hitems _ hgroup, hframe⟩
  · rw [itemsOf_keptGroups]
    exact (emittedItems_eq_self_iff _).mpr (nodup_itemName_emittedItems _)

/-- The groups that keep some items are warned about as they were. -/
theorem fallbackWarnings_keptGroups (groups : List Group) :
    (keptGroups groups).filterMap (·.fallbackWarning (keptGroups groups)) =
      groups.filterMap (·.fallbackWarning groups) := by
  have hwarning (group : Group) :
      group.fallbackWarning (keptGroups groups) = group.fallbackWarning groups :=
    group.fallbackWarning_congr fun id ↦ by rw [map_groupId_keptGroups]
  have hread := congrArg (List.filterMap (·.fallbackWarning groups)) (map_snd_withEarlier [] groups)
  rw [List.filterMap_map] at hread
  simp only [hwarning]
  rw [← hread, keptGroups, List.filterMap_map]
  rfl

end Items

/-- The emitted groups with their emitted items compile without an error and to the same pack. -/
theorem compile_keptGroups {config : Configuration}
    (hitems : ∀ group ∈ keptGroups (emittedGroups config.groups), group.items ≠ []) :
    (compile (config.withGroups (keptGroups (emittedGroups config.groups)))).errors = [] ∧
      (config.withGroups (keptGroups (emittedGroups config.groups))).CompilesLike config := by
  have hrejected := rejected_keptGroups hitems
  obtain ⟨hgroups, hall⟩ := (rejected_eq_nil_iff _).mp hrejected
  have hclean : (config.withGroups (keptGroups (emittedGroups config.groups))).IsClean :=
    (rejected_eq_nil_iff_isClean _).mp hrejected
  refine ⟨(errors_eq_nil_iff_isClean _).mpr hclean, compilesLike_of_planned ?_ ?_ ?_⟩
  · refine (plannedRoutines_of_isClean hclean).trans ?_
    change List.flatMap _ (keptGroups (emittedGroups config.groups)) = _
    rw [keptGroups, List.flatMap_map]
    rfl
  · rw [hgroups, hall, itemsOf_keptGroups]
  · rw [hgroups, fallbackWarnings_keptGroups]

/-! ### Without any rejected declaration -/

/-- The configuration without the groups that get no function. -/
def Configuration.withoutRejectedGroups (config : Configuration) : Configuration :=
  config.withGroups (emittedGroups config.groups)

/-- The configuration without the groups and the occurrences of items that get no function. -/
def Configuration.withoutRejected (config : Configuration) : Configuration :=
  config.withGroups (keptGroups (emittedGroups config.groups))

/-- Rejected declarations have no influence on the pack. The groups that get functions compile alike
without the others, and of the errors those about items are left. If each of them has an emitted item,
then they compile alike with nothing but their emitted items, and no error is left. -/
theorem compile_withoutRejected (config : Configuration) :
    (compile config).artifactsOf .group = config.withoutRejectedGroups.groups.map config.groupRoutine ∧
      config.withoutRejectedGroups.CompilesLike config ∧
      (compile config.withoutRejectedGroups).errors =
        (compile config).errors.filter (·.isAboutItem) ∧
      ((∀ group ∈ config.withoutRejected.groups, group.items ≠ []) →
        (compile config.withoutRejected).errors = [] ∧
          config.withoutRejected.CompilesLike config) := by
  have hidempotent := emittedGroups_emittedGroups config.groups
  refine ⟨artifactsOf_group_compile config, compilesLike_of_planned ?_ ?_ ?_,
    errors_compile_emittedGroups config, compile_keptGroups⟩
  · rw [Configuration.plannedRoutines, hidempotent, Configuration.plannedRoutines]
  · rw [hidempotent]
  · rw [hidempotent]

/-- Five shelves, of which the second repeats the identifier of the first, the third has no items, and
the fourth repeats the frame of the third. The last one repeats an item and a name, and it falls back to
the fourth. -/
def crowdedShelves : Configuration where
  groups :=
    [{ name := "Ores", items := ["minecraft:coal", "minecraft:iron_ore"]
       itemFrame := some "minecraft:chest" },
     { name := "Ores!", items := ["minecraft:gold_ore"], itemFrame := some "minecraft:furnace" },
     { name := "Empty", itemFrame := some "minecraft:barrel" },
     { name := "Stones", items := ["minecraft:stone"], itemFrame := some "minecraft:barrel" },
     { name := "Fuel", items := ["minecraft:coal", "other:coal", "minecraft:charcoal"]
       itemFrame := some "minecraft:hopper", fallback := some "Stones" }]

/-- The first and the last shelf with three of their items make the pack of all five. -/
theorem compile_withoutRejected_crowdedShelves :
    (compile crowdedShelves).errors.length = 5 ∧
      (∀ group ∈ crowdedShelves.withoutRejected.groups, group.items ≠ []) ∧
      (compile crowdedShelves.withoutRejected).errors = [] ∧
      crowdedShelves.withoutRejected.CompilesLike crowdedShelves := by
  have hitems : ∀ group ∈ crowdedShelves.withoutRejected.groups, group.items ≠ [] := by
    decide +kernel
  exact ⟨by decide +kernel, hitems, (compile_withoutRejected crowdedShelves).2.2.2 hitems⟩

end FrameSorter
