import Mathlib.Data.List.Perm.Basic
import FrameSorter.Proofs.CleanConfiguration
import FrameSorter.Proofs.Diagnosis

/-!
# The order of declarations

As soon as two declarations clash, the earlier one wins. Where nothing clashes, the order decides
nothing but the order of the output. A configuration is reordered by permuting its groups and the items
within each group (`Configuration.Reorders`). Whatever is read off group by group, and item by item within
a group, is permuted by that (`perm_flatMap_of_reorders`); that a configuration is clean is such a
property (`isClean_of_reorders`), and so are its functions, its dispatch lines and its warnings. For a
clean configuration `compile_reordered` puts this together.
-/

set_option autoImplicit false
set_option relaxedAutoImplicit false

namespace FrameSorter

/-! ### Reordered declarations -/

/-- A group with its items in another order. -/
structure Group.Reorders (group other : Group) : Prop where
  name : other.name = group.name
  items : other.items.Perm group.items
  itemFrame : other.itemFrame = group.itemFrame
  fallback : other.fallback = group.fallback

/-- A configuration with its groups, and the items within each of them, in another order. -/
structure Configuration.Reorders (config other : Configuration) : Prop where
  groups : ∃ groups, config.groups.Perm groups ∧ List.Forall₂ Group.Reorders groups other.groups
  otherwise : other = { config with groups := other.groups }

section Groups

variable {config other : Configuration} {α : Type}

theorem Group.Reorders.frame_eq {group other : Group} (hreorders : group.Reorders other) :
    other.frame = group.frame := by
  rw [Group.frame, hreorders.itemFrame, Group.frame]

/-- What is read off reordered groups one by one. -/
theorem perm_flatMap_of_forall₂ {groups reordered : List Group} {value : Group → List α}
    (hgroups : List.Forall₂ Group.Reorders groups reordered)
    (hvalue : ∀ group other : Group, group.Reorders other → (value other).Perm (value group)) :
    (reordered.flatMap value).Perm (groups.flatMap value) := by
  induction hgroups with
  | nil => exact List.Perm.refl _
  | cons hgroup _ ih =>
    rw [List.flatMap_cons, List.flatMap_cons]
    exact (hvalue _ _ hgroup).append ih

/-- What is read off group by group is permuted if what is read off each group is. -/
theorem perm_flatMap_of_reorders (hreorders : config.Reorders other) {value : Group → List α}
    (hvalue : ∀ group reordered : Group, group.Reorders reordered →
      (value reordered).Perm (value group)) :
    (other.groups.flatMap value).Perm (config.groups.flatMap value) := by
  obtain ⟨groups, hperm, hgroups⟩ := hreorders.groups
  exact (perm_flatMap_of_forall₂ hgroups hvalue).trans
    (hperm.symm.flatMap fun _ _ ↦ List.Perm.refl _)

/-- A value of each group that does not depend on the order of its items. -/
theorem perm_map_of_reorders (hreorders : config.Reorders other) {value : Group → α}
    (hvalue : ∀ group reordered : Group, group.Reorders reordered → value reordered = value group) :
    (other.groups.map value).Perm (config.groups.map value) := by
  rw [List.map_eq_flatMap, List.map_eq_flatMap]
  exact perm_flatMap_of_reorders hreorders fun group reordered hgroup ↦ by
    rw [hvalue group reordered hgroup]

/-- Every group of a reordered configuration is a reordered group. -/
theorem exists_group_of_reorders (hreorders : config.Reorders other) {reordered : Group}
    (hmember : reordered ∈ other.groups) : ∃ group ∈ config.groups, group.Reorders reordered := by
  obtain ⟨groups, hperm, hgroups⟩ := hreorders.groups
  obtain ⟨index, hindex, rfl⟩ := List.mem_iff_getElem.mp hmember
  have hlength := hgroups.length_eq
  exact ⟨groups[index], hperm.mem_iff.mpr (List.getElem_mem _), hgroups.get _ _⟩

/-- The items of all groups, permuted. -/
theorem perm_items_of_reorders (hreorders : config.Reorders other) :
    (other.groups.flatMap Group.items).Perm (config.groups.flatMap Group.items) :=
  perm_flatMap_of_reorders hreorders fun _ _ hgroup ↦ hgroup.items

/-- A clean configuration is clean in any order. -/
theorem isClean_of_reorders (hreorders : config.Reorders other) (hclean : config.IsClean) :
    other.IsClean where
  id_ne_empty reordered hmember := by
    obtain ⟨group, hgroup, hsame⟩ := exists_group_of_reorders hreorders hmember
    rw [hsame.name]
    exact hclean.id_ne_empty group hgroup
  nodup_ids := by
    refine (perm_map_of_reorders hreorders fun group reordered hsame ↦ ?_).nodup_iff.mpr
      hclean.nodup_ids
    rw [hsame.name]
  frame_ne_none reordered hmember := by
    obtain ⟨group, hgroup, hsame⟩ := exists_group_of_reorders hreorders hmember
    rw [hsame.frame_eq]
    exact hclean.frame_ne_none group hgroup
  nodup_frames :=
    (perm_map_of_reorders hreorders fun _ _ hsame ↦ hsame.frame_eq).nodup_iff.mpr
      hclean.nodup_frames
  items_ne_nil reordered hmember := by
    obtain ⟨group, hgroup, hsame⟩ := exists_group_of_reorders hreorders hmember
    rintro hnil
    have hitems := hsame.items
    rw [hnil] at hitems
    exact hclean.items_ne_nil group hgroup hitems.nil_eq.symm
  nodup_itemNames :=
    ((perm_items_of_reorders hreorders).map itemName).nodup_iff.mpr hclean.nodup_itemNames

end Groups

/-! ### Reordered output -/

section Output

variable {config other : Configuration}

/-- The functions of a clean configuration, group by group, are permuted. -/
theorem perm_routines_of_reorders (hreorders : config.Reorders other) (hclean : config.IsClean) :
    (compile other).routines.Perm (compile config).routines := by
  rw [routines_compile, routines_compile, plannedRoutines_of_isClean hclean,
    plannedRoutines_of_isClean (isClean_of_reorders hreorders hclean)]
  -- What is planned for a group does not depend on the list of the groups.
  have hplanned : other.groupRoutine = config.groupRoutine ∧ other.itemRoutine = config.itemRoutine := by
    rw [hreorders.otherwise]
    exact ⟨rfl, rfl⟩
  rw [hplanned.1, hplanned.2]
  refine perm_flatMap_of_reorders hreorders fun group reordered hsame ↦ ?_
  have hgroup : config.groupRoutine reordered = config.groupRoutine group := by
    rw [Configuration.groupRoutine, Configuration.fallbackCommand, hsame.name, hsame.frame_eq,
      hsame.fallback]
    rfl
  have hitem : config.itemRoutine reordered = config.itemRoutine group := by
    funext item
    rw [Configuration.itemRoutine, hsame.name]
    rfl
  rw [hgroup, hitem]
  exact (hsame.items.map _).cons _

/-- The dispatch lines of a clean configuration, item by item, are permuted. -/
theorem perm_plannedDispatchLines_of_reorders (hreorders : config.Reorders other)
    (hclean : config.IsClean) :
    (other.plannedDispatchLines other.groups).Perm (config.plannedDispatchLines config.groups) := by
  obtain ⟨hgroups, hitems⟩ := emitted_of_isClean hclean
  obtain ⟨hgroups', hitems'⟩ := emitted_of_isClean (isClean_of_reorders hreorders hclean)
  have hline : other.itemDispatchLine = config.itemDispatchLine := by
    rw [hreorders.otherwise]
    rfl
  rw [Configuration.plannedDispatchLines, Configuration.plannedDispatchLines, hgroups, hgroups',
    hitems, hitems', hline]
  exact (perm_items_of_reorders hreorders).map config.itemDispatchLine

/-- The warnings of a clean configuration, group by group, are permuted. -/
theorem perm_warnings_of_reorders (hreorders : config.Reorders other) (hclean : config.IsClean) :
    (compile other).warnings.Perm (compile config).warnings := by
  have hids : (other.groups.map (groupId ·.name)).Perm (config.groups.map (groupId ·.name)) :=
    perm_map_of_reorders hreorders fun _ _ hsame ↦ by rw [hsame.name]
  have hknown (group : Group) :
      group.fallbackWarning other.groups = group.fallbackWarning config.groups :=
    group.fallbackWarning_congr fun _ ↦ hids.mem_iff
  rw [warnings_compile, warnings_compile, (emitted_of_isClean hclean).1,
    (emitted_of_isClean (isClean_of_reorders hreorders hclean)).1]
  simp only [hknown]
  rw [List.filterMap_eq_flatMap_toList, List.filterMap_eq_flatMap_toList]
  refine perm_flatMap_of_reorders hreorders fun group reordered hsame ↦ ?_
  have hwarning :
      reordered.fallbackWarning config.groups = group.fallbackWarning config.groups := by
    rw [Group.fallbackWarning, hsame.name, hsame.fallback]
    rfl
  rw [hwarning]

/-- A clean configuration counts all its groups and items, in any order. -/
theorem stats_eq_of_reorders (hreorders : config.Reorders other) (hclean : config.IsClean) :
    (compile other).stats = (compile config).stats := by
  obtain ⟨hgroups, hitems⟩ := emitted_of_isClean hclean
  obtain ⟨hgroups', hitems'⟩ := emitted_of_isClean (isClean_of_reorders hreorders hclean)
  have hlength := (perm_map_of_reorders hreorders fun _ _ hsame ↦ hsame.name).length_eq
  rw [List.length_map, List.length_map] at hlength
  rw [stats_compile, stats_compile, hgroups, hgroups', hitems, hitems', hlength,
    (perm_items_of_reorders hreorders).length_eq]

end Output

/-- The order of the declarations does not matter where nothing is wrong with them: a configuration that
compiles without an error does so in any other order, its functions, its dispatch lines and its warnings
are permuted, and it counts the same. -/
theorem compile_reordered {config other : Configuration} (hreorders : config.Reorders other)
    (herrors : (compile config).errors = []) :
    (compile other).errors = [] ∧
      (compile other).routines.Perm (compile config).routines ∧
      ((compile config).dispatcher.content =
          dispatcherHeader config ++ String.join (config.plannedDispatchLines config.groups) ∧
        (compile other).dispatcher.content =
          dispatcherHeader other ++ String.join (other.plannedDispatchLines other.groups) ∧
        (other.plannedDispatchLines other.groups).Perm (config.plannedDispatchLines config.groups)) ∧
      (compile other).warnings.Perm (compile config).warnings ∧
      (compile other).stats = (compile config).stats := by
  have hclean := (errors_eq_nil_iff_isClean config).mp herrors
  have hreordered := (errors_eq_nil_iff_isClean other).mpr (isClean_of_reorders hreorders hclean)
  refine ⟨hreordered, perm_routines_of_reorders hreorders hclean, ⟨?_, ?_, ?_⟩,
    perm_warnings_of_reorders hreorders hclean, stats_eq_of_reorders hreorders hclean⟩
  · rw [dispatcher_compile]
  · rw [dispatcher_compile]
  · exact perm_plannedDispatchLines_of_reorders hreorders hclean

/-- Two shelves, of which the second falls back to a shelf that is not declared. -/
def orderlyShelves : Configuration where
  groups :=
    [{ name := "Ores", items := ["minecraft:coal", "minecraft:iron_ore"]
       itemFrame := some "minecraft:chest" },
     { name := "Woods", items := ["minecraft:oak_log"], itemFrame := some "minecraft:barrel"
       fallback := some "Plants" }]

/-- The same shelves the other way round, and so the items of the larger one. -/
def turnedShelves : Configuration where
  groups :=
    [{ name := "Woods", items := ["minecraft:oak_log"], itemFrame := some "minecraft:barrel"
       fallback := some "Plants" },
     { name := "Ores", items := ["minecraft:iron_ore", "minecraft:coal"]
       itemFrame := some "minecraft:chest" }]

/-- The two orders are compiled to permuted functions and to the same warning. -/
theorem compile_reordered_turnedShelves :
    orderlyShelves.Reorders turnedShelves ∧ (compile orderlyShelves).errors = [] ∧
      (compile turnedShelves).errors = [] ∧
      (compile turnedShelves).routines.Perm (compile orderlyShelves).routines ∧
      (compile turnedShelves).warnings.Perm (compile orderlyShelves).warnings := by
  have hreorders : orderlyShelves.Reorders turnedShelves := by
    refine ⟨⟨_, List.Perm.swap _ _ [], .cons ⟨rfl, ?_, rfl, rfl⟩ (.cons ⟨rfl, ?_, rfl, rfl⟩ .nil)⟩, rfl⟩
    · exact List.Perm.refl _
    · exact List.Perm.swap _ _ []
  have herrors : (compile orderlyShelves).errors = [] := by decide
  obtain ⟨hclean, hroutines, -, hwarnings, -⟩ := compile_reordered hreorders herrors
  exact ⟨hreorders, herrors, hclean, hroutines, hwarnings⟩

end FrameSorter
