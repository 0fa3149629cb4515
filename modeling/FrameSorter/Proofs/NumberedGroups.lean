import FrameSorter.Numbered
import FrameSorter.Proofs.CleanConfiguration
import FrameSorter.Proofs.Diagnosis
import FrameSorter.Proofs.Identifiers
import FrameSorter.Proofs.Scanning
import FrameSorter.Proofs.ScriptCalls

/-!
# Numbered groups compile

Numbers are written differently if they differ, and a mark that is no digit keeps two of them apart
(`numberedItemName_inj`). So the groups of a numbered configuration differ in their identifiers and
frames and its items in their names, and with items in its groups the configuration is clean
(`isClean_numberedConfiguration`). Every group that another one falls back to is declared, so nothing is
warned about (`warnings_compile_eq_nil`). Without items each group is reported for just that
(`errors_compile_of_itemless`). `compile_numberedConfiguration` says what the whole family compiles to.
-/

set_option autoImplicit false
set_option relaxedAutoImplicit false

namespace FrameSorter

/-! ### Written numbers -/

/-- A number is written in digits. -/
theorem isDigit_of_mem_toString {n : Nat} {c : Char} (hc : c ∈ (toString n).toList) : c.isDigit := by
  rw [Nat.toString_eq_repr, Nat.toList_repr] at hc
  exact isDigit_of_mem_toDigits hc

/-- Different numbers are written differently. -/
theorem toString_inj {m n : Nat} : toString m = toString n ↔ m = n := by
  refine ⟨fun hsame ↦ ?_, congrArg toString⟩
  have hdigits : Nat.toDigits 10 m = Nat.toDigits 10 n := by
    rwa [Nat.toString_eq_repr, Nat.toString_eq_repr, ← String.toList_inj, Nat.toList_repr,
      Nat.toList_repr] at hsame
  calc
    m = Nat.ofDigitChars 10 (Nat.toDigits 10 m) 0 := Nat.ofDigitChars_ten_toDigits.symm
    _ = Nat.ofDigitChars 10 (Nat.toDigits 10 n) 0 := by rw [hdigits]
    _ = n := Nat.ofDigitChars_ten_toDigits

/-- The name of the item with number `i` of the group with number `k`. -/
def numberedItemName (k i : Nat) : String :=
  "item_" ++ toString k ++ "_" ++ toString i

/-- Behind the common beginning a name has the digits of the group's number up to a low line. -/
theorem toList_numberedItemName (k i : Nat) :
    (numberedItemName k i).toList =
      "item_".toList ++ ((toString k).toList ++ '_' :: (toString i).toList) := by
  simp [numberedItemName]

/-- Both numbers are read off the name of an item. -/
theorem numberedItemName_inj {k i l j : Nat} :
    numberedItemName k i = numberedItemName l j ↔ k = l ∧ i = j := by
  constructor
  · intro hsame
    have hlowLine (n : Nat) : ∀ c ∈ ('_' :: (toString n).toList).head?, ¬ c.isDigit := by
      rintro c ⟨⟩
      decide
    have hnumbers : (toString k).toList ++ '_' :: (toString i).toList =
        (toString l).toList ++ '_' :: (toString j).toList := by
      rw [← String.toList_inj, toList_numberedItemName, toList_numberedItemName] at hsame
      exact List.append_cancel_left hsame
    have hgroup := congrArg (List.takeWhile Char.isDigit) hnumbers
    rw [takeWhile_append_of_head (fun _ ↦ isDigit_of_mem_toString) (hlowLine i),
      takeWhile_append_of_head (fun _ ↦ isDigit_of_mem_toString) (hlowLine j), String.toList_inj,
      toString_inj] at hgroup
    subst hgroup
    have hitem := (List.cons.inj (List.append_cancel_left hnumbers)).2
    exact ⟨rfl, toString_inj.mp (String.toList_inj.mp hitem)⟩
  · rintro ⟨rfl, rfl⟩
    rfl

/-! ### What a numbered group declares -/

section Declared

variable (itemsPerGroup k : Nat)

/-- The identifier of a numbered group is its name without the blank. -/
theorem groupId_numberedGroupName : groupId (numberedGroupName k) = "Group" ++ toString k := by
  have hdigits : (toString k).toList.filter isWordCharacter = (toString k).toList := by
    refine List.filter_eq_self.mpr fun c hc ↦ ?_
    simp [isWordCharacter, Char.isAlphanum, isDigit_of_mem_toString hc]
  rw [groupId, numberedGroupName, String.toList_append, List.filter_append, hdigits,
    String.ofList_append, String.ofList_toList]
  rfl

/-- A numbered group has its own frame. -/
theorem frame_numberedGroup :
    (numberedGroup itemsPerGroup k).frame = some ("minecraft:frame_" ++ toString k) := by
  simp [Group.frame, numberedGroup, Option.filter]

/-- The name of a numbered item is what stands behind its namespace. -/
theorem itemName_numberedItem (i : Nat) :
    itemName ("minecraft:item_" ++ toString k ++ "_" ++ toString i) = numberedItemName k i := by
  have hcolon : ':' ∉ (numberedItemName k i).toList := by
    rw [toList_numberedItemName]
    simp only [List.mem_append, List.mem_cons, not_or]
    refine ⟨by decide, fun hk ↦ ?_, by decide, fun hi ↦ ?_⟩
    · exact absurd (isDigit_of_mem_toString hk) (by decide)
    · exact absurd (isDigit_of_mem_toString hi) (by decide)
  have hitem : "minecraft:item_" ++ toString k ++ "_" ++ toString i =
      resourceLocation "minecraft" (numberedItemName k i) := by
    rw [← String.toList_inj]
    simp [resourceLocation, numberedItemName]
  rw [hitem, itemName_resourceLocation (by decide) hcolon]

/-- The names of the items of a numbered group. -/
theorem map_itemName_numberedGroup :
    (numberedGroup itemsPerGroup k).items.map itemName =
      (List.range itemsPerGroup).map (numberedItemName k) := by
  rw [numberedGroup, List.map_map]
  refine List.map_congr_left fun i _ ↦ ?_
  rw [Function.comp_apply, itemName_numberedItem]

end Declared

/-! ### Numbered configurations are clean -/

section Clean

variable (groups itemsPerGroup : Nat)

/-- A numbered group has an identifier. -/
theorem id_ne_empty_numberedConfiguration :
    ∀ group ∈ (numberedConfiguration groups itemsPerGroup).groups, groupId group.name ≠ "" := by
  refine List.forall_mem_map.mpr fun k _ ↦ ?_
  change groupId (numberedGroupName k) ≠ ""
  simp [groupId_numberedGroupName]

/-- A numbered group has a frame. -/
theorem frame_ne_none_numberedConfiguration :
    ∀ group ∈ (numberedConfiguration groups itemsPerGroup).groups, group.frame ≠ none := by
  refine List.forall_mem_map.mpr fun k _ ↦ ?_
  simp [frame_numberedGroup]

/-- The identifiers of numbered groups differ. -/
theorem nodup_ids_numberedConfiguration :
    ((numberedConfiguration groups itemsPerGroup).groups.map (groupId ·.name)).Nodup := by
  rw [numberedConfiguration, List.map_map]
  refine List.nodup_range.map fun k l hsame ↦ ?_
  change groupId (numberedGroupName k) = groupId (numberedGroupName l) at hsame
  rw [groupId_numberedGroupName, groupId_numberedGroupName, String.append_right_inj, toString_inj]
    at hsame
  exact hsame

/-- The frames of numbered groups differ. -/
theorem nodup_frames_numberedConfiguration :
    ((numberedConfiguration groups itemsPerGroup).groups.map Group.frame).Nodup := by
  rw [numberedConfiguration, List.map_map]
  refine List.nodup_range.map fun k l hsame ↦ ?_
  change (numberedGroup itemsPerGroup k).frame = (numberedGroup itemsPerGroup l).frame at hsame
  rw [frame_numberedGroup, frame_numberedGroup, Option.some.injEq, String.append_right_inj,
    toString_inj] at hsame
  exact hsame

/-- The items of numbered groups differ in their names, within a group and between two groups. -/
theorem nodup_itemNames_numberedConfiguration :
    (((numberedConfiguration groups itemsPerGroup).groups.flatMap Group.items).map itemName).Nodup := by
  rw [numberedConfiguration, List.flatMap_map, List.map_flatMap, List.nodup_flatMap]
  simp only [map_itemName_numberedGroup]
  constructor
  · intro k _
    exact List.nodup_range.map fun _ _ hsame ↦ (numberedItemName_inj.mp hsame).2
  · refine List.nodup_range.imp fun {k l} hdifferent name hk hl ↦ ?_
    obtain ⟨i, -, rfl⟩ := List.mem_map.mp hk
    obtain ⟨j, -, hsame⟩ := List.mem_map.mp hl
    exact hdifferent (numberedItemName_inj.mp hsame).1.symm

/-- With items in its groups a numbered configuration is clean. -/
theorem isClean_numberedConfiguration (hitems : 1 ≤ itemsPerGroup) :
    (numberedConfiguration groups itemsPerGroup).IsClean where
  id_ne_empty := id_ne_empty_numberedConfiguration groups itemsPerGroup
  nodup_ids := nodup_ids_numberedConfiguration groups itemsPerGroup
  frame_ne_none := frame_ne_none_numberedConfiguration groups itemsPerGroup
  nodup_frames := nodup_frames_numberedConfiguration groups itemsPerGroup
  items_ne_nil := by
    refine List.forall_mem_map.mpr fun k _ hempty ↦ ?_
    rw [numberedGroup, List.map_eq_nil_iff, List.range_eq_nil] at hempty
    omega
  nodup_itemNames := nodup_itemNames_numberedConfiguration groups itemsPerGroup

end Clean

/-! ### Fallbacks that are declared -/

/-- Nothing is warned about in a clean configuration whose groups fall back to declared groups. -/
theorem warnings_compile_eq_nil {config : Configuration} (hclean : config.IsClean)
    (hdeclared : ∀ group ∈ config.groups, ∀ target, group.fallbackGroup = some target →
      ∃ other ∈ config.groups, groupId other.name = groupId target) :
    (compile config).warnings = [] := by
  rw [warnings_compile, (emitted_of_isClean hclean).1, List.filterMap_eq_nil_iff]
  intro group hgroup
  rw [Option.eq_none_iff_forall_ne_some]
  intro warning hwarning
  obtain ⟨target, htarget, hunknown, -⟩ := Group.fallbackWarning_eq_some_iff.mp hwarning
  obtain ⟨other, hother, hid⟩ := hdeclared group hgroup target htarget
  exact hunknown other hother hid

/-- The first numbered group falls back to no group. -/
theorem fallbackGroup_numberedGroup_zero (itemsPerGroup : Nat) :
    (numberedGroup itemsPerGroup 0).fallbackGroup = none :=
  rfl

/-- Any other numbered group falls back to the one before it. -/
theorem fallbackGroup_numberedGroup_succ (itemsPerGroup k : Nat) :
    (numberedGroup itemsPerGroup (k + 1)).fallbackGroup = some (numberedGroupName k) := by
  simp [Group.fallbackGroup, numberedGroup, numberedGroupName, Option.filter]

/-- The group that a numbered group falls back to is declared. -/
theorem exists_fallback_numberedConfiguration (groups itemsPerGroup : Nat) :
    ∀ group ∈ (numberedConfiguration groups itemsPerGroup).groups, ∀ target,
      group.fallbackGroup = some target →
        ∃ other ∈ (numberedConfiguration groups itemsPerGroup).groups,
          groupId other.name = groupId target := by
  refine List.forall_mem_map.mpr fun k hk target htarget ↦ ?_
  cases k with
  | zero => cases htarget
  | succ k =>
    rw [fallbackGroup_numberedGroup_succ, Option.some.injEq] at htarget
    have hbefore : k ∈ List.range groups :=
      List.mem_range.mpr (Nat.lt_of_succ_lt (List.mem_range.mp hk))
    exact ⟨numberedGroup itemsPerGroup k, List.mem_map_of_mem hbefore, htarget ▸ rfl⟩

/-! ### Groups without items -/

/-- No group without items is emitted. -/
theorem emittedGroups_eq_nil_of_itemless {groups : List Group}
    (hitemless : ∀ group ∈ groups, group.items = []) : emittedGroups groups = [] := by
  refine List.filter_eq_nil_iff.mpr fun group hgroup hcomplete ↦ ?_
  have hdeclared := (firstComers_sublist Group.Clashes groups).subset hgroup
  exact (of_decide_eq_true hcomplete).2.1 (hitemless group hdeclared)

/-- Where no group is emitted, all are rejected. -/
theorem rejected_of_itemless {groups : List Group} (hitemless : ∀ group ∈ groups, group.items = []) :
    rejected groups = (withEarlier [] groups).map fun reading ↦ .group reading.1 reading.2 := by
  rw [rejected, List.map_eq_flatMap]
  refine List.flatMap_congr fun reading hreading ↦ if_neg fun hemitted ↦ ?_
  exact hemitted.2.2.1 (hitemless _ (mem_of_mem_withEarlier hreading))

/-- A group that clashes with none before it is free. -/
theorem isFree_of_pairwise {groups : List Group}
    (hclash : groups.Pairwise fun earlier later ↦ ¬ later.Clashes earlier)
    {reading : List Group × Group} (hreading : reading ∈ withEarlier [] groups) :
    reading.2.IsFree reading.1 := by
  obtain ⟨first, second, hsplit, hbefore⟩ := mem_withEarlier_iff.mp hreading
  rw [List.nil_append] at hbefore
  rw [hsplit, List.pairwise_append] at hclash
  rw [hbefore]
  intro other hother
  have hearlier : other ∈ first := (firstComers_sublist Group.Clashes first).subset hother
  exact hclash.2.2 other hearlier reading.2 List.mem_cons_self

/-- Groups that clash with none before them and have identifiers but no items are reported for that, one
by one. -/
theorem errors_compile_of_itemless {config : Configuration}
    (hclash : config.groups.Pairwise fun earlier later ↦ ¬ later.Clashes earlier)
    (hid : ∀ group ∈ config.groups, groupId group.name ≠ "")
    (hitemless : ∀ group ∈ config.groups, group.items = []) :
    (compile config).errors = config.groups.map fun group ↦ .invalidGroup group.name .noItems := by
  refine (eq_errors_of_forall₂ ?_).symm
  rw [rejected_of_itemless hitemless]
  nth_rewrite 2 [← map_snd_withEarlier [] config.groups]
  rw [List.map_map, List.forall₂_map_left_iff, List.forall₂_map_right_iff, List.forall₂_same]
  intro reading hreading
  have hdeclared := mem_of_mem_withEarlier hreading
  exact .noItems (isFree_of_pairwise hclash hreading) (hid _ hdeclared) (hitemless _ hdeclared)

/-! ### The family -/

/-- The name of the function of the group with number `k`. -/
def numberedFunctionName (k : Nat) : String :=
  "group_Group" ++ toString k

/-- What the function of the group with number `k` does where the group's frame is missing: it runs the
function of the group before, and in the first group the item is left unsorted. -/
def numberedFallback : Nat → String
  | 0 => "tag @s add sorter_unsorted"
  | k + 1 => "function sorter:" ++ numberedFunctionName k

/-- The function of the group with number `k`. -/
def numberedFunction (k : Nat) : Artifact where
  name := numberedFunctionName k
  kind := .group
  content :=
    routingScript
      { kind := "minecraft:item_frame", radius := 64, target := "minecraft:frame_" ++ toString k
        name := none }
      (numberedFallback k)

/-- What numbered groups with items compile to: the function of every group, which falls back to that of
the group before, the functions of all items, and nothing to complain of. -/
structure Compilation.IsNumbered (compilation : Compilation) (groups itemsPerGroup : Nat) : Prop where
  errors : compilation.errors = []
  warnings : compilation.warnings = []
  totalGroups : compilation.stats.totalGroups = groups
  totalItems : compilation.stats.totalItems = groups * itemsPerGroup
  groupFunctions : compilation.artifactsOf .group = (List.range groups).map numberedFunction
  fallsBack : ∀ k < groups, ∃ function selector,
    (compilation.artifactsOf .group)[k]? = some function ∧
      FallsBackTo function.content selector (numberedFallback k)
  length_groupFunctions : (compilation.artifactsOf .group).length = groups
  length_itemFunctions : (compilation.artifactsOf .item).length = groups * itemsPerGroup

/-- What a numbered group does where its frame is missing. -/
theorem fallbackCommand_numberedGroup (groups itemsPerGroup k : Nat) :
    (numberedConfiguration groups itemsPerGroup).fallbackCommand (numberedGroup itemsPerGroup k) =
      numberedFallback k := by
  cases k with
  | zero =>
    rw [Configuration.fallbackCommand_of_none _ (fallbackGroup_numberedGroup_zero itemsPerGroup)]
    rfl
  | succ k =>
    change _ = "function sorter:" ++ numberedFunctionName k
    rw [Configuration.fallbackCommand_of_some _ (fallbackGroup_numberedGroup_succ itemsPerGroup k),
      groupId_numberedGroupName, ← String.toList_inj]
    simp [numberedConfiguration, functionCall, resourceLocation, groupArtifactName,
      numberedFunctionName]

/-- What a numbered group asks for is its function. -/
theorem groupRoutine_numberedGroup (groups itemsPerGroup k : Nat) :
    (numberedConfiguration groups itemsPerGroup).groupRoutine (numberedGroup itemsPerGroup k) =
      numberedFunction k := by
  have hname : groupArtifactName (groupId (numberedGroupName k)) = numberedFunctionName k := by
    rw [groupId_numberedGroupName, ← String.toList_inj]
    simp [groupArtifactName, numberedFunctionName]
  rw [Configuration.groupRoutine, frame_numberedGroup, fallbackCommand_numberedGroup, numberedFunction,
    ← hname]
  rfl

/-- The items of numbered groups, counted together. -/
theorem length_items_numberedConfiguration (groups itemsPerGroup : Nat) :
    ((numberedConfiguration groups itemsPerGroup).groups.flatMap Group.items).length =
      groups * itemsPerGroup := by
  simp [numberedConfiguration, numberedGroup, List.length_flatMap, Function.comp_def]

/-- The functions of numbered groups with items, in the order of their numbers. -/
theorem artifactsOf_group_numberedConfiguration (groups : Nat) {itemsPerGroup : Nat}
    (hitems : 1 ≤ itemsPerGroup) :
    (compile (numberedConfiguration groups itemsPerGroup)).artifactsOf .group =
      (List.range groups).map numberedFunction := by
  have hclean := isClean_numberedConfiguration groups itemsPerGroup hitems
  rw [artifactsOf_group_compile, (emitted_of_isClean hclean).1]
  nth_rewrite 2 [numberedConfiguration]
  rw [List.map_map]
  exact List.map_congr_left fun k _ ↦ groupRoutine_numberedGroup groups itemsPerGroup k

/-- All items of numbered groups are counted. -/
theorem totalItems_numberedConfiguration (groups : Nat) {itemsPerGroup : Nat}
    (hitems : 1 ≤ itemsPerGroup) :
    (compile (numberedConfiguration groups itemsPerGroup)).stats.totalItems =
      groups * itemsPerGroup := by
  obtain ⟨hgroups, hall⟩ :=
    emitted_of_isClean (isClean_numberedConfiguration groups itemsPerGroup hitems)
  rw [stats_compile, hgroups, hall, length_items_numberedConfiguration]

/-- Numbered groups without items. -/
theorem itemless_numberedConfiguration (groups : Nat) :
    ∀ group ∈ (numberedConfiguration groups 0).groups, group.items = [] :=
  List.forall_mem_map.mpr fun _ _ ↦ rfl

/-- Numbered groups compile to one function for each group and for each item, without an error or a
warning, and every group but the first falls back to the one before it; without items they compile to no
function, and each of them is reported. -/
theorem compile_numberedConfiguration (groups itemsPerGroup : Nat) :
    (1 ≤ itemsPerGroup →
        (compile (numberedConfiguration groups itemsPerGroup)).IsNumbered groups itemsPerGroup) ∧
      (compile (numberedConfiguration groups 0)).routines = [] ∧
      (compile (numberedConfiguration groups 0)).errors =
        (List.range groups).map fun k ↦ .invalidGroup (numberedGroupName k) .noItems := by
  refine ⟨fun hitems ↦ ?_, ?_, ?_⟩
  · have hclean := isClean_numberedConfiguration groups itemsPerGroup hitems
    have hfunctions := artifactsOf_group_numberedConfiguration groups hitems
    have htotal := totalItems_numberedConfiguration groups hitems
    exact
      { errors := (errors_eq_nil_iff_isClean _).mpr hclean
        warnings := warnings_compile_eq_nil hclean
          (exists_fallback_numberedConfiguration groups itemsPerGroup)
        totalGroups := by simp [stats_compile, numberedConfiguration]
        totalItems := htotal
        groupFunctions := hfunctions
        fallsBack := fun k hk ↦
          ⟨numberedFunction k, _, by simp [hfunctions, hk], fallsBackTo_routingScript _ _⟩
        length_groupFunctions := by simp [hfunctions]
        length_itemFunctions := (length_artifactsOf_item_compile _).trans htotal }
  · rw [routines_compile, Configuration.plannedRoutines,
      emittedGroups_eq_nil_of_itemless (itemless_numberedConfiguration groups)]
    rfl
  · have hclash := (pairwise_not_clashes_iff (frame_ne_none_numberedConfiguration groups 0)).mpr
      ⟨nodup_ids_numberedConfiguration groups 0, nodup_frames_numberedConfiguration groups 0⟩
    rw [errors_compile_of_itemless hclash (id_ne_empty_numberedConfiguration groups 0)
      (itemless_numberedConfiguration groups)]
    exact List.map_map

/-- Three groups of two items each. -/
theorem compile_numberedConfiguration_three :
    1 ≤ 2 ∧ (compile (numberedConfiguration 3 2)).IsNumbered 3 2 :=
  ⟨by decide, (compile_numberedConfiguration 3 2).1 (by decide)⟩

end FrameSorter
