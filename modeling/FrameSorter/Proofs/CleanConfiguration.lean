import FrameSorter.Proofs.CompiledArtifacts

/-!
# Clean configurations

A configuration is clean if its declarations are complete and share no identifier, no frame and no item
name (`Configuration.IsClean`). The condition does not depend on the order of the declarations. Every
declaration that is read is either emitted or rejected (`length_rejected`), so nothing is rejected
exactly if all groups and all items are emitted (`rejected_eq_nil_iff`), and that is so exactly if the
configuration is clean (`rejected_eq_nil_iff_isClean`). A clean configuration compiles without an error,
to one function for each declared group and for each declared item (`errors_compile_eq_nil_iff`).
-/

set_option autoImplicit false
set_option relaxedAutoImplicit false

namespace FrameSorter

/-! ### Emitted or rejected -/

/-- Every item of an emitted group is emitted or rejected. -/
theorem length_rejectedAmong (earlier : List String) (owner : Group) (items : List String) :
    (emittedAmong earlier items).length + (rejectedAmong earlier owner items).length =
      items.length := by
  induction items using List.reverseRecOn with
  | nil => rfl
  | append_singleton items item ih =>
    rw [emittedAmong_concat, rejectedAmong_concat, List.length_append, List.length_append,
      List.length_append]
    by_cases hitem : IsEmittedItem (earlier ++ items) item
    · rw [if_pos hitem, if_pos hitem, List.length_singleton, List.length_nil]
      omega
    · rw [if_neg hitem, if_neg hitem, List.length_singleton, List.length_nil]
      simp only [List.length_singleton]
      omega

/-- Every declared group and every item of an emitted group is emitted or rejected. -/
theorem length_rejected (groups : List Group) :
    (emittedGroups groups).length + (emittedItems (itemsOf (emittedGroups groups))).length +
        (rejected groups).length =
      groups.length + (itemsOf (emittedGroups groups)).length := by
  induction groups using List.reverseRecOn with
  | nil => rfl
  | append_singleton groups group ih =>
    rw [emittedGroups_concat, rejected_concat]
    by_cases hgroup : group.IsEmitted groups
    · have hitems := length_rejectedAmong (itemsOf (emittedGroups groups)) group group.items
      simp only [if_pos hgroup, itemsOf_append, itemsOf_singleton, emittedItems_append,
        List.length_append, List.length_singleton]
      omega
    · simp only [if_neg hgroup, List.append_nil, List.length_append, List.length_singleton]
      omega

/-- Nothing is rejected exactly if every group and every item is emitted. -/
theorem rejected_eq_nil_iff (groups : List Group) :
    rejected groups = [] ↔
      emittedGroups groups = groups ∧ emittedItems (itemsOf groups) = itemsOf groups := by
  have hcount := length_rejected groups
  constructor
  · intro h
    rw [h, List.length_nil] at hcount
    have hgroups := (emittedGroups_sublist groups).length_le
    have hitems := (emittedItems_sublist (itemsOf (emittedGroups groups))).length_le
    have hallGroups : emittedGroups groups = groups :=
      (emittedGroups_sublist groups).eq_of_length (by omega)
    refine ⟨hallGroups, ?_⟩
    have hallItems := (emittedItems_sublist (itemsOf (emittedGroups groups))).eq_of_length (by omega)
    rwa [hallGroups] at hallItems
  · rintro ⟨hgroups, hitems⟩
    rw [hgroups, hitems] at hcount
    exact List.eq_nil_of_length_eq_zero (by omega)

/-! ### Clean configurations -/

/-- A configuration whose declarations are complete and share nothing. -/
structure Configuration.IsClean (config : Configuration) : Prop where
  id_ne_empty : ∀ group ∈ config.groups, groupId group.name ≠ ""
  nodup_ids : (config.groups.map (groupId ·.name)).Nodup
  frame_ne_none : ∀ group ∈ config.groups, group.frame ≠ none
  nodup_frames : (config.groups.map Group.frame).Nodup
  items_ne_nil : ∀ group ∈ config.groups, group.items ≠ []
  nodup_itemNames : ((config.groups.flatMap Group.items).map itemName).Nodup

/-- Groups that all have a frame clash with none before them exactly if their identifiers are distinct
and their frames are. -/
theorem pairwise_not_clashes_iff {groups : List Group}
    (hframes : ∀ group ∈ groups, group.frame ≠ none) :
    (groups.Pairwise fun earlier later ↦ ¬ later.Clashes earlier) ↔
      (groups.map (groupId ·.name)).Nodup ∧ (groups.map Group.frame).Nodup := by
  rw [List.Nodup, List.Nodup, List.pairwise_map, List.pairwise_map, ← List.pairwise_and_iff]
  refine List.Pairwise.iff_of_mem fun {earlier later} _ hlater ↦ ?_
  rw [Group.Clashes, not_or]
  constructor
  · rintro ⟨hid, hframe⟩
    exact ⟨fun hsame ↦ hid hsame.symm, fun hsame ↦ hframe ⟨hframes later hlater, hsame.symm⟩⟩
  · rintro ⟨hid, hframe⟩
    exact ⟨fun hsame ↦ hid hsame.symm, fun hsame ↦ hframe hsame.2.symm⟩

/-- Nothing is rejected exactly if the configuration is clean. -/
theorem rejected_eq_nil_iff_isClean (config : Configuration) :
    rejected config.groups = [] ↔ config.IsClean := by
  rw [rejected_eq_nil_iff, emittedGroups_eq_self_iff, emittedItems_eq_self_iff]
  constructor
  · rintro ⟨⟨hclash, hcomplete⟩, hnames⟩
    have hframes : ∀ group ∈ config.groups, group.frame ≠ none :=
      fun group hgroup ↦ (hcomplete group hgroup).2.2
    obtain ⟨hids, hdistinct⟩ := (pairwise_not_clashes_iff hframes).mp hclash
    exact
      { id_ne_empty := fun group hgroup ↦ (hcomplete group hgroup).1
        nodup_ids := hids
        frame_ne_none := hframes
        nodup_frames := hdistinct
        items_ne_nil := fun group hgroup ↦ (hcomplete group hgroup).2.1
        nodup_itemNames := hnames }
  · intro hclean
    refine ⟨⟨?_, fun group hgroup ↦ ?_⟩, hclean.nodup_itemNames⟩
    · exact (pairwise_not_clashes_iff hclean.frame_ne_none).mpr
        ⟨hclean.nodup_ids, hclean.nodup_frames⟩
    · exact ⟨hclean.id_ne_empty group hgroup, hclean.items_ne_nil group hgroup,
        hclean.frame_ne_none group hgroup⟩

/-- All groups and all items of a clean configuration are emitted. -/
theorem emitted_of_isClean {config : Configuration} (hclean : config.IsClean) :
    emittedGroups config.groups = config.groups ∧
      emittedItems (itemsOf config.groups) = config.groups.flatMap Group.items :=
  (rejected_eq_nil_iff config.groups).mp ((rejected_eq_nil_iff_isClean config).mpr hclean)

/-- The errors are as many as the rejected declarations, so there is none exactly if the configuration
is clean. -/
theorem errors_eq_nil_iff_isClean (config : Configuration) :
    (compile config).errors = [] ↔ config.IsClean := by
  have hlength := (ledgerReads_ofGroups config config.groups).errors.length_eq
  rw [← rejected_eq_nil_iff_isClean, ← List.length_eq_zero_iff, ← List.length_eq_zero_iff, hlength]
  rfl

/-- Where nothing is rejected, the functions are those of all declared groups and items. -/
theorem plannedRoutines_of_isClean {config : Configuration} (hclean : config.IsClean) :
    config.plannedRoutines config.groups =
      config.groups.flatMap fun group ↦
        config.groupRoutine group :: group.items.map (config.itemRoutine group) := by
  obtain ⟨hgroups, -⟩ := emitted_of_isClean hclean
  rw [Configuration.plannedRoutines, hgroups]
  nth_rewrite 2 [← map_snd_withEarlier [] config.groups]
  rw [List.flatMap_map]
  refine List.flatMap_congr fun reading hreading ↦ ?_
  -- The items that come before the group in the configuration are the items of the groups before it.
  obtain ⟨first, second, hsplit, hbefore⟩ := mem_withEarlier_iff.mp hreading
  have hnames : ((itemsOf reading.1 ++ reading.2.items).map itemName).Nodup := by
    refine List.Nodup.sublist (List.Sublist.map itemName ?_) hclean.nodup_itemNames
    rw [hsplit, hbefore, List.nil_append]
    change List.Sublist _ (itemsOf (first ++ reading.2 :: second))
    rw [List.append_cons, itemsOf_append, itemsOf_append, itemsOf_singleton]
    exact List.sublist_append_left _ _
  rw [Configuration.routinesOf, emittedAmong_eq_self hnames]

/-- One function for each group and one for each item. -/
theorem length_flatMap_routines (config : Configuration) (groups : List Group) :
    (groups.flatMap fun group ↦
      config.groupRoutine group :: group.items.map (config.itemRoutine group)).length =
        groups.length + (groups.flatMap Group.items).length := by
  induction groups with
  | nil => rfl
  | cons group groups ih =>
    simp only [List.flatMap_cons, List.length_append, List.length_cons, List.length_map, ih]
    omega

/-- A compilation reports no error exactly if the configuration is clean, and then every declared group
and every declared item has its function and is counted. -/
theorem errors_compile_eq_nil_iff (config : Configuration) :
    ((compile config).errors = [] ↔ config.IsClean) ∧
      ((compile config).errors = [] →
        (compile config).routines =
            config.groups.flatMap (fun group ↦
              config.groupRoutine group :: group.items.map (config.itemRoutine group)) ∧
          (compile config).routines.length =
            config.groups.length + (config.groups.flatMap Group.items).length ∧
          (compile config).stats.totalItems = (config.groups.flatMap Group.items).length) := by
  refine ⟨errors_eq_nil_iff_isClean config, fun herrors ↦ ?_⟩
  have hclean := (errors_eq_nil_iff_isClean config).mp herrors
  have hroutines := plannedRoutines_of_isClean hclean
  obtain ⟨hgroups, hitems⟩ :=
    (rejected_eq_nil_iff config.groups).mp ((rejected_eq_nil_iff_isClean config).mpr hclean)
  rw [routines_compile, stats_compile, hroutines]
  refine ⟨rfl, length_flatMap_routines config config.groups, ?_⟩
  rw [hgroups, hitems]
  rfl

/-- A shelf for two items, declared without a mistake. -/
def oneShelf : Configuration where
  groups :=
    [{ name := "Ores", items := ["minecraft:coal", "minecraft:iron_ore"]
       itemFrame := some "minecraft:coal" }]

/-- The shelf compiles to the function of the group and those of its two items. -/
theorem errors_compile_oneShelf :
    (compile oneShelf).errors = [] ∧ (compile oneShelf).routines.length = 3 := by
  have herrors : (compile oneShelf).errors = [] := by decide
  exact ⟨herrors, ((errors_compile_eq_nil_iff oneShelf).2 herrors).2.1⟩

end FrameSorter
